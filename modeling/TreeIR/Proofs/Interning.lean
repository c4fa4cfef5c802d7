/-
# TreeIR.Proofs.Interning -- names number the strings by first use

An interner keeps every string twice: `texts` leads from a number to its string, `names` from
a string to its number.  `Records` says what the two have to do with the strings interned so
far: they are one relation, between a string of the history and its rank, which is how many
distinct strings were interned before its first use.  What comes later does not change a rank
(`rank_append_of_mem`), so interning keeps `Records`, whether the string is known or new
(`Records.attempt`).

Names run out at `nameLimit`.  The strings of a rank below it are in, all others are not and never
will be: a string that comes too late finds the interner full, and so does every new one after it.
So what an attempt gives depends on the rank alone (`assigned`).

A program interns in two of its calls.  All others leave its names alone (`names_step`), so
after a run they are what the interned strings by themselves make of no names at all
(`names_after`), and what holds of interners holds of the names of programs.
-/
import TreeIR.Proofs.Run

namespace TreeIR

set_option autoImplicit false

namespace Interner

variable {interner : Interner} {history : List String} {text : String} {name : Name}

/-! ## Ranks -/

/-- How many distinct strings a list has before it first comes to this one. -/
def rank (history : List String) (text : String) : Nat :=
  (history.takeWhile (· ≠ text)).toFinset.card

/-- A string that does not occur has all distinct strings before it. -/
theorem rank_of_notMem (new : text ∉ history) : rank history text = history.toFinset.card := by
  have whole : history.takeWhile (· ≠ text) = history := by
    rw [List.takeWhile_eq_self_iff]
    intro other member
    simpa using fun same : other = text => new (same ▸ member)
  rw [rank, whole]

/-- The rank is decided where the string first occurs. -/
theorem rank_of_first {earlier : List String} (first : text ∉ earlier) (later : List String) :
    rank (earlier ++ text :: later) text = earlier.toFinset.card := by
  have before : ∀ other ∈ earlier, decide (other ≠ text) = true := by
    intro other member
    simpa using fun same : other = text => first (same ▸ member)
  rw [rank, List.takeWhile_append_of_pos before]
  simp

theorem rank_append_of_mem (member : text ∈ history) (later : List String) :
    rank (history ++ later) text = rank history text := by
  obtain ⟨earlier, rest, rfl, first⟩ := List.eq_append_cons_of_mem member
  rw [List.append_assoc, List.cons_append, rank_of_first first, rank_of_first first]

/-- Where a string is used again, or for the first time, its rank is known before. -/
theorem rank_append_cons (earlier later : List String) (text : String) :
    rank (earlier ++ text :: later) text = rank earlier text := by
  by_cases known : text ∈ earlier
  · exact rank_append_of_mem known (text :: later)
  · rw [rank_of_first known, rank_of_notMem known]

/-- No rank exceeds the number of distinct strings. -/
theorem rank_le (history : List String) (text : String) :
    rank history text ≤ history.toFinset.card := by
  apply Finset.card_le_card
  intro other member
  rw [List.mem_toFinset] at member ⊢
  exact (List.takeWhile_prefix _).subset member

/-- The name that goes to a string of a history, if one is left when it is first used. -/
def assigned (history : List String) (text : String) : Except Fault Name :=
  if rank history text < nameLimit then .ok (.ofPosition (rank history text))
  else .error .internerFull

theorem nameLimit_lt_words : nameLimit < UInt32.size := by decide

theorem assigned_of_lt (left : rank history text < nameLimit) :
    ∃ name, assigned history text = .ok name ∧ name.position = rank history text :=
  ⟨_, if_pos left, Name.position_ofPosition (Nat.lt_trans left nameLimit_lt_words)⟩

theorem assigned_eq_ok_iff :
    assigned history text = .ok name ↔
      rank history text = name.position ∧ name.position < nameLimit := by
  by_cases left : rank history text < nameLimit
  · obtain ⟨given, assigned, position⟩ := assigned_of_lt left
    rw [assigned, Except.ok.injEq, Name.ext_position_iff, position]
    exact ⟨fun same => ⟨same, same ▸ left⟩, And.left⟩
  · rw [assigned, if_neg left]
    constructor
    · intro assigned
      cases assigned
    · rintro ⟨same, inside⟩
      exact absurd (same ▸ inside) left

/-! ## One string -/

theorem intern_of_known (known : interner.find? text = some name) :
    interner.intern text = .ok (name, interner) := by
  rw [intern, known]

theorem intern_of_new (new : interner.find? text = none) (left : interner.size < nameLimit) :
    interner.intern text = .ok (interner.next, interner.add text) := by
  rw [intern, new, Fault.ensure, if_pos (decide_eq_true left)]
  rfl

theorem intern_of_full (new : interner.find? text = none) (full : nameLimit ≤ interner.size) :
    interner.intern text = .error .internerFull := by
  rw [intern, new, Fault.ensure, if_neg (mt of_decide_eq_true (Nat.not_lt.2 full))]
  rfl

/-- What an attempt to intern a string leaves behind; a full interner stays as it is. -/
def attempt (interner : Interner) (text : String) : Interner :=
  match interner.intern text with
  | .ok (_, next) => next
  | .error _ => interner

theorem attempt_of_ok {next : Interner} (made : interner.intern text = .ok (name, next)) :
    interner.attempt text = next := by
  rw [attempt, made]

theorem attempt_of_error {cause : Fault} (stops : interner.intern text = .error cause) :
    interner.attempt text = interner := by
  rw [attempt, stops]

theorem lookup_eq_ok_iff : interner.lookup name = .ok text ↔
    interner.texts[name.position]? = some text := by
  rw [lookup]
  split <;> simp_all

/-- Interning leaves every number that is in use to its string. -/
theorem lookup_attempt (found : interner.lookup name = .ok text) (other : String) :
    (interner.attempt other).lookup name = .ok text := by
  rw [lookup_eq_ok_iff] at found ⊢
  cases known : interner.find? other with
  | some old =>
    rw [attempt_of_ok (intern_of_known known)]
    exact found
  | none =>
    obtain ⟨inside, -⟩ := Array.getElem?_eq_some_iff.1 found
    by_cases left : interner.size < nameLimit
    · rw [attempt_of_ok (intern_of_new known left), add, Array.getElem?_push,
        if_neg (Nat.ne_of_lt inside)]
      exact found
    · rw [attempt_of_error (intern_of_full known (Nat.le_of_not_lt left))]
      exact found

/-! ## The strings interned so far -/

/-- The string occurs, and has that rank, which is a name's. -/
def Ranked (history : List String) (text : String) (position : Nat) : Prop :=
  text ∈ history ∧ rank history text = position ∧ position < nameLimit

/-- One more string changes nothing for the others, and is ranked itself from then on. -/
theorem ranked_append {other : String} {position : Nat} :
    Ranked (history ++ [text]) other position ↔
      Ranked history other position ∨
        (other = text ∧ rank history text = position ∧ position < nameLimit) := by
  by_cases here : other = text
  · subst here
    have same : rank (history ++ [other]) other = rank history other :=
      rank_append_cons history [] other
    simp [Ranked, same]
  · have kept : other ∈ history ++ [text] ↔ other ∈ history := by simp [here]
    rw [Ranked, Ranked, kept, or_iff_left fun added => here added.1]
    exact and_congr_right fun old => by rw [rank_append_of_mem old]

/-- Both halves of the interner relate the strings of the history to their ranks. -/
structure Records (interner : Interner) (history : List String) : Prop where
  size_eq : interner.size = min history.toFinset.card nameLimit
  find?_iff : ∀ text name, interner.find? text = some name ↔ Ranked history text name.position
  texts_iff : ∀ text position, interner.texts[position]? = some text ↔ Ranked history text position

namespace Records

theorem find?_of_mem (records : interner.Records history) (member : text ∈ history)
    (left : rank history text < nameLimit) :
    interner.find? text = some (.ofPosition (rank history text)) := by
  have position := Name.position_ofPosition (Nat.lt_trans left nameLimit_lt_words)
  exact (records.find?_iff text _).2 ⟨member, position.symm, position.symm ▸ left⟩

theorem find?_of_unranked (records : interner.Records history)
    (unranked : text ∈ history → nameLimit ≤ rank history text) : interner.find? text = none := by
  cases found : interner.find? text with
  | none => rfl
  | some name =>
    obtain ⟨member, same, inside⟩ := (records.find?_iff text name).1 found
    exact absurd (same ▸ inside) (Nat.not_lt.2 (unranked member))

/-- A string that is known, or comes too late, changes nothing. -/
theorem again (records : interner.Records history)
    (settled : text ∈ history ∨ nameLimit ≤ rank history text) :
    interner.Records (history ++ [text]) := by
  have unchanged (other : String) (position : Nat) :
      Ranked (history ++ [text]) other position ↔ Ranked history other position := by
    rw [ranked_append]
    refine or_iff_left_of_imp ?_
    rintro ⟨rfl, same, inside⟩
    rcases settled with member | late
    · exact ⟨member, same, inside⟩
    · exact absurd (same ▸ inside) (Nat.not_lt.2 late)
  refine ⟨?_, fun other name => ?_, fun other position => ?_⟩
  · rw [records.size_eq, List.toFinset_append]
    rcases settled with member | late
    · simp [member]
    · have before := Nat.le_trans late (rank_le history text)
      have after : history.toFinset.card ≤ (history.toFinset ∪ [text].toFinset).card :=
        Finset.card_le_card Finset.subset_union_left
      rw [Nat.min_eq_right before, Nat.min_eq_right (Nat.le_trans before after)]
  · rw [unchanged, records.find?_iff]
  · rw [unchanged, records.texts_iff]

/-- A new string gets the number after the last. -/
theorem add (records : interner.Records history) (new : text ∉ history)
    (left : history.toFinset.card < nameLimit) :
    (interner.add text).Records (history ++ [text]) := by
  have size : interner.texts.size = history.toFinset.card :=
    records.size_eq.trans (Nat.min_eq_left (Nat.le_of_lt left))
  have next : interner.next.position = history.toFinset.card := by
    rw [Interner.next, Interner.size, size]
    exact Name.position_ofPosition (Nat.lt_trans left nameLimit_lt_words)
  have unknown := records.find?_of_unranked fun member => absurd member new
  refine ⟨?_, ?_, ?_⟩
  · show (interner.texts.push text).size = _
    rw [Array.size_push, size, List.toFinset_append, Finset.union_comm]
    simp [new]
    omega
  · intro other name
    show (interner.names.insert text interner.next)[other]? = some name ↔ _
    rw [ranked_append, ← records.find?_iff, Std.ExtTreeMap.getElem?_insert, rank_of_notMem new]
    by_cases here : other = text
    · subst here
      rw [if_pos Std.ReflOrd.compare_self, unknown, Option.some.injEq, Name.ext_position_iff, next]
      refine ⟨fun same => .inr ⟨rfl, same, same ▸ left⟩, ?_⟩
      rintro (known | ⟨-, same, -⟩)
      · cases known
      · exact same
    · rw [if_neg (by simpa using Ne.symm here), or_iff_left fun added => here added.1]
      rfl
  · intro other position
    show (interner.texts.push text)[position]? = some other ↔ _
    rw [ranked_append, ← records.texts_iff, Array.getElem?_push, rank_of_notMem new]
    by_cases here : position = interner.texts.size
    · rw [if_pos here, here]
      simp [size, left, eq_comm]
    · rw [if_neg here, or_iff_left fun added => here (added.2.1.symm.trans size.symm)]

/-- Interning a string gives the name of its rank and adds it to the history. -/
theorem attempt (records : interner.Records history) (text : String) :
    (interner.intern text).map Prod.fst = assigned history text ∧
      (interner.attempt text).Records (history ++ [text]) := by
  by_cases left : rank history text < nameLimit
  · rw [assigned, if_pos left]
    by_cases member : text ∈ history
    · have known := intern_of_known (records.find?_of_mem member left)
      rw [known, attempt_of_ok known]
      exact ⟨rfl, records.again (.inl member)⟩
    · rw [rank_of_notMem member] at left ⊢
      have size : interner.size = history.toFinset.card :=
        records.size_eq.trans (Nat.min_eq_left (Nat.le_of_lt left))
      have made := intern_of_new (records.find?_of_unranked fun here => absurd here member)
        (size ▸ left)
      rw [made, attempt_of_ok made]
      exact ⟨congrArg (Except.ok ∘ Name.ofPosition) size, records.add member left⟩
  · have late : nameLimit ≤ rank history text := Nat.le_of_not_lt left
    have full : nameLimit ≤ interner.size := by
      rw [records.size_eq, Nat.min_eq_right (Nat.le_trans late (rank_le history text))]
    have stops := intern_of_full (records.find?_of_unranked fun _ => late) full
    rw [assigned, if_neg left, stops, attempt_of_error stops]
    exact ⟨rfl, records.again (.inr late)⟩

end Records

/-! ## Many strings -/

/-- The interner after more strings were interned in order, as far as names last. -/
def internAll (interner : Interner) (texts : List String) : Interner :=
  texts.foldl attempt interner

theorem Records.internAll (records : interner.Records history) (texts : List String) :
    (interner.internAll texts).Records (history ++ texts) := by
  induction texts generalizing interner history with
  | nil => simpa [Interner.internAll] using records
  | cons text rest ih =>
    have next := ih (records.attempt text).2
    rwa [List.append_assoc, List.singleton_append] at next

/-- What a number stands for it stands for ever after. -/
theorem lookup_internAll (found : interner.lookup name = .ok text) (texts : List String) :
    (interner.internAll texts).lookup name = .ok text := by
  induction texts generalizing interner with
  | nil => exact found
  | cons other rest ih => exact ih (lookup_attempt found other)

/-! ## Numbers and strings -/

section Bijection

variable (records : interner.Records history)

include records

theorem Records.lookup_eq_ok_iff :
    interner.lookup name = .ok text ↔ text ∈ history ∧ assigned history text = .ok name := by
  rw [Interner.lookup_eq_ok_iff, records.texts_iff, Ranked, assigned_eq_ok_iff]

end Bijection

end Interner

/-! ## Programs -/

/-- The strings that a request interns. -/
def Request.interns : Request → List String
  | intern text | namedVar text => [text]
  | _ => []

namespace Program

open Interner (rank assigned)

variable {program : Program} {text : String}

/-- Interning in a program is interning in its names. -/
theorem step_intern (program : Program) (text : String) :
    (Request.intern text).step program =
      ((((program.names.intern text).map Prod.fst).map Answer.name).mapError .fault,
        { program with names := program.names.attempt text }) := by
  obtain ⟨cause, tried, stops⟩ | ⟨name, names, tried, goes⟩ := program.intern_cases text
  · rw [Request.step_of_error rfl stops, tried, Interner.attempt_of_error tried]
    rfl
  · rw [Request.step_of_ok rfl goes, tried, Interner.attempt_of_ok tried]
    rfl

theorem step_namedVar (program : Program) (text : String) :
    (Request.namedVar text).step program =
      ((((program.names.intern text).map Prod.fst).map (Answer.var ∘ Var.named)).mapError .fault,
        { program with names := program.names.attempt text }) := by
  obtain ⟨cause, tried, stops⟩ | ⟨name, names, tried, goes⟩ := program.intern_cases text
  · have stops : (namedVar text).run program = .error (.fault cause) program := by
      simp [namedVar, stops]
    rw [Request.step_of_error rfl stops, tried, Interner.attempt_of_error tried]
    rfl
  · have goes : (namedVar text).run program = .ok (.named name) { program with names } := by
      simp [namedVar, goes]
    rw [Request.step_of_ok rfl goes, tried, Interner.attempt_of_ok tried]
    rfl

/-- Names change where a string is interned and nowhere else. -/
theorem names_step (request : Request) (program : Program) :
    (request.step program).2.names = program.names.internAll request.interns := by
  cases request.outcome program with
  | failed step =>
    cases request with
    | intern text => exact congrArg (fun next => next.2.names) (step_intern program text)
    | namedVar text => exact congrArg (fun next => next.2.names) (step_namedVar program text)
    | _ => rw [step]; rfl
  | stuck mints why step =>
    subst mints
    rw [step]
    rfl
  | succeeded effect step =>
    rw [step]
    cases effect with
    | interned made => exact (Interner.attempt_of_ok made).symm
    | named made => exact (Interner.attempt_of_ok made).symm
    | asked question =>
      cases request with
      | intern text => cases question
      | namedVar text => cases question
      | _ => rfl
    | _ => rfl

variable {start : Program} {requests : List Request} {call : Call}

theorem nameText_eq_ok_iff {name : Name} :
    program.nameText name = .ok text ↔ program.names.lookup name = .ok text := by
  rw [nameText]
  cases program.names.lookup name <;> simp [Except.mapError]

end Program

end TreeIR
