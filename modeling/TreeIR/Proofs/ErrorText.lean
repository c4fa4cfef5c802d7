/-
# TreeIR.Proofs.ErrorText -- the message of an error says which error it is

A message is a sentence about one thing, its subject: words in front of it, the var, name or node
in the form that `text` gives it, and behind it more words, which may name kinds or a function.

The words in front have no capital letter and every subject starts with one, so the first capital
letter ends them.  Subjects are a prefix code (`Subject.prefixFree_text`): `None`, `Index(7)`,
`Name(Name(7))`, `Name(7)` and `Id(7)` differ in the letters up to the number, and the number ends
where its digits end.  So a text is a sentence in one way only (`Sentence.parts_eq_of_text`).

No two errors have the same parts (`ResolveError.eq_of_parts`, `RegisterError.eq_of_parts`,
`parts_ne`).  Most differ in the words in front of the subject; of those that start alike, one is
about a var and the other about a name, or they go on with another word behind the subject.  A
function is shown last, so all that its text has to do is to show the number (`PrintsNumber`).
-/
import Mathlib
import TreeIR.Failure

namespace TreeIR

set_option autoImplicit false

/-! ## Where a text can be cut -/

/-- Letters of one kind end at the first letter that is not of it. -/
theorem append_inj_of_break (kind : Char → Bool) {before earlier after later : List Char}
    {first second : Char} (inBefore : ∀ letter ∈ before, kind letter = true)
    (inEarlier : ∀ letter ∈ earlier, kind letter = true)
    (stop : kind first = false) (halt : kind second = false)
    (same : before ++ first :: after = earlier ++ second :: later) :
    before = earlier ∧ first :: after = second :: later := by
  have fronts := congrArg (List.takeWhile kind) same
  have backs := congrArg (List.dropWhile kind) same
  rw [List.takeWhile_append_of_pos inBefore, List.takeWhile_append_of_pos inEarlier,
    List.takeWhile_cons_of_neg (by simp [stop]), List.takeWhile_cons_of_neg (by simp [halt]),
    List.append_nil, List.append_nil] at fronts
  rw [List.dropWhile_append_of_pos inBefore, List.dropWhile_append_of_pos inEarlier,
    List.dropWhile_cons_of_neg (by simp [stop]), List.dropWhile_cons_of_neg (by simp [halt])]
    at backs
  exact ⟨fronts, backs⟩

/-- A number can be read off the front if something else than a digit stands behind it. -/
theorem toDigits_append_inj {n m : Nat} {stop : Char} {rest tail : List Char}
    (noDigit : stop.isDigit = false)
    (same : Nat.toDigits 10 n ++ stop :: rest = Nat.toDigits 10 m ++ stop :: tail) :
    n = m ∧ rest = tail := by
  have digits (k : Nat) : ∀ letter ∈ Nat.toDigits 10 k, letter.isDigit = true :=
    fun _ => Nat.isDigit_of_mem_toDigits (by decide) (by decide)
  obtain ⟨numbers, rests⟩ :=
    append_inj_of_break Char.isDigit (digits n) (digits m) noDigit noDigit same
  refine ⟨?_, List.tail_eq_of_cons_eq rests⟩
  rw [← Nat.ofDigitChars_ten_toDigits (n := n), numbers, Nat.ofDigitChars_ten_toDigits]

/-- A number starts with a digit. -/
theorem toDigits_append_ne {n : Nat} {letter : Char} {rest tail : List Char}
    (noDigit : letter.isDigit = false) : Nat.toDigits 10 n ++ rest ≠ letter :: tail := by
  obtain ⟨first, more, digits⟩ : ∃ first more, Nat.toDigits 10 n = first :: more :=
    List.exists_cons_of_ne_nil Nat.toDigits_ne_nil
  have digit : first.isDigit = true :=
    Nat.isDigit_of_mem_toDigits (by decide) (by decide) (digits ▸ List.mem_cons_self)
  rw [digits, List.cons_append]
  intro same
  obtain rfl := List.head_eq_of_cons_eq same
  exact Bool.false_ne_true (noDigit.symm.trans digit)

/-- No value's text is the beginning of another's: it can be split off the front of any text. -/
def PrefixFree {α : Type} (text : α → String) : Prop :=
  ∀ (one other : α) (rest tail : List Char),
    (text one).toList ++ rest = (text other).toList ++ tail → one = other ∧ rest = tail

namespace PrefixFree

variable {α : Type} {text : α → String}

theorem injective (free : PrefixFree text) : Function.Injective text := by
  intro one other same
  exact (free one other [] [] (by rw [same])).1

theorem append_eq_iff (free : PrefixFree text) {one other : α} {rest tail : String} :
    text one ++ rest = text other ++ tail ↔ one = other ∧ rest = tail := by
  constructor
  · intro same
    have letters := congrArg String.toList same
    rw [String.toList_append, String.toList_append] at letters
    exact (free one other _ _ letters).imp_right String.toList_inj.1
  · rintro ⟨rfl, rfl⟩
    rfl

end PrefixFree

/-! ## Subjects -/

/-- What a message is about. -/
inductive Subject
  | var (reference : Var)
  | name (known : Name)
  | node (id : NodeId)
  deriving DecidableEq, Repr

theorem toString_string (text : String) : toString text = text := rfl

theorem Name.toList_text (name : Name) :
    name.text.toList = "Name(".toList ++ (Nat.toDigits 10 name.position ++ ")".toList) := by
  simp only [Name.text, toString_string, String.toList_append, List.append_assoc,
    Nat.toString_eq_repr, Nat.toList_repr]

theorem Handle.toList_text (handle : Handle) :
    handle.text.toList = "Id(".toList ++ (Nat.toDigits 10 handle.position ++ ")".toList) := by
  simp only [Handle.text, toString_string, String.toList_append, List.append_assoc,
    Nat.toString_eq_repr, Nat.toList_repr]

namespace Var

theorem toList_text_unset : unset.text.toList = "None".toList := rfl

theorem toList_text_index (number : UInt32) :
    (index number).text.toList =
      "Index(".toList ++ (Nat.toDigits 10 number.toNat ++ ")".toList) := by
  simp only [Var.text, toString_string, String.toList_append, List.append_assoc,
    Nat.toString_eq_repr, Nat.toList_repr]

theorem toList_text_named (name : Name) :
    (named name).text.toList = "Name(".toList ++ (name.text.toList ++ ")".toList) := by
  simp only [Var.text, toString_string, String.toList_append, List.append_assoc]

end Var

namespace Subject

def text : Subject → String
  | var reference => reference.text
  | name known => known.text
  | node id => id.text

/-- A subject starts with a capital letter. -/
theorem exists_toList_text_eq_cons (subject : Subject) :
    ∃ letter rest, subject.text.toList = letter :: rest ∧ letter.isUpper = true := by
  rcases subject with (_ | number | name) | name | id
  · exact ⟨_, _, Var.toList_text_unset, by decide⟩
  · exact ⟨_, _, Var.toList_text_index number, by decide⟩
  · exact ⟨_, _, Var.toList_text_named name, by decide⟩
  · exact ⟨_, _, name.toList_text, by decide⟩
  · exact ⟨_, _, id.toList_text, by decide⟩

/-- A subject can be read off the front of a text. -/
theorem prefixFree_text : PrefixFree text := by
  intro one other rest tail same
  rcases one with (_ | number | inner) | outer | id <;>
    rcases other with (_ | second | within) | beyond | next <;>
    simp only [text, Var.toList_text_unset, Var.toList_text_index, Var.toList_text_named,
      Name.toList_text, Handle.toList_text, String.reduceToList, List.cons_append,
      List.nil_append, List.append_assoc, List.cons.injEq, Char.reduceEq, true_and, false_and,
      and_false] at same
  -- What is left starts with the same letters: one form twice, or a name alone and as a var.
  case var.unset.var.unset => exact ⟨rfl, same⟩
  case var.index.var.index =>
    obtain ⟨numbers, rests⟩ := toDigits_append_inj (by decide) same
    exact ⟨by rw [UInt32.toNat_inj.1 numbers], rests⟩
  case var.named.var.named =>
    obtain ⟨positions, rests⟩ := toDigits_append_inj (by decide) same
    exact ⟨by rw [Name.ext_position positions], List.tail_eq_of_cons_eq rests⟩
  case name.name =>
    obtain ⟨positions, rests⟩ := toDigits_append_inj (by decide) same
    exact ⟨by rw [Name.ext_position positions], rests⟩
  case node.node =>
    obtain ⟨positions, rests⟩ := toDigits_append_inj (by decide) same
    exact ⟨by rw [Handle.ext_position positions], rests⟩
  -- A var that is a name has a whole name where the name alone has its number.
  case var.named.name => exact absurd same.symm (toDigits_append_ne (by decide))
  case name.var.named => exact absurd same (toDigits_append_ne (by decide))

end Subject

/-! ## Sentences -/

/-- A message in its parts. -/
structure Sentence where
  /-- The words in front of the subject. -/
  lead : String
  subject : Subject
  /-- What stands behind the subject. -/
  rest : String
  plain : ∀ letter ∈ lead.toList, letter.isUpper = false

namespace Sentence

def text (sentence : Sentence) : String :=
  sentence.lead ++ sentence.subject.text ++ sentence.rest

theorem toList_text (sentence : Sentence) :
    sentence.text.toList =
      sentence.lead.toList ++ (sentence.subject.text.toList ++ sentence.rest.toList) := by
  rw [text, String.toList_append, String.toList_append, List.append_assoc]

/-- The first capital letter ends the lead, and behind it the subject can be read off. -/
theorem parts_eq_of_text {one other : Sentence} (same : one.text = other.text) :
    one.lead = other.lead ∧ one.subject = other.subject ∧ one.rest = other.rest := by
  obtain ⟨first, more, letters, capital⟩ := one.subject.exists_toList_text_eq_cons
  obtain ⟨second, others, further, upper⟩ := other.subject.exists_toList_text_eq_cons
  have texts := congrArg String.toList same
  rw [toList_text, toList_text, letters, further, List.cons_append, List.cons_append] at texts
  obtain ⟨leads, behind⟩ := append_inj_of_break (fun letter => !letter.isUpper)
    (by simpa using one.plain) (by simpa using other.plain) (by simp [capital])
    (by simp [upper]) texts
  rw [← List.cons_append, ← List.cons_append, ← letters, ← further] at behind
  obtain ⟨subjects, rests⟩ := Subject.prefixFree_text _ _ _ _ behind
  exact ⟨String.toList_inj.1 leads, subjects, String.toList_inj.1 rests⟩

end Sentence

/-! ## Errors as sentences -/

theorem EntityKind.prefixFree_text : PrefixFree EntityKind.text := by
  intro one other rest tail same
  cases one <;> cases other <;> simp_all [EntityKind.text]

/-- A text that shows a number shows one number only. -/
theorem PrintsNumber.injective {text : Nat → String} (prints : PrintsNumber text) :
    Function.Injective text := by
  obtain ⟨front, back, shows⟩ := prints
  intro number second same
  rw [shows, shows, String.append_left_inj, String.append_right_inj] at same
  exact Nat.repr_injective same

variable {functionText : Nat → String}

namespace ResolveError

def sentence (functionText : Nat → String) : ResolveError → Sentence
  | unresolved var => ⟨"unresolved reference ", .var var, "", by simp⟩
  | unexpectedKind var expected found =>
      ⟨"", .var var, " refers to a " ++ found.text ++ ", expected a " ++ expected.text, by simp⟩
  | localNotFound var function =>
      ⟨"local ", .var var, " not declared in function " ++ functionText function, by simp⟩
  | unknownExport name => ⟨"no export named ", .name name, "", by simp⟩

theorem text_sentence (error : ResolveError) :
    (error.sentence functionText).text = error.message functionText := by
  rw [← String.toList_inj, Sentence.toList_text]
  cases error <;> unfold sentence message <;> simp [Subject.text, toString_string]

/-- Where two kinds are named, both can be read off. -/
theorem kinds_inj {expected found asked met : EntityKind}
    (same : " refers to a " ++ found.text ++ ", expected a " ++ expected.text =
      " refers to a " ++ met.text ++ ", expected a " ++ asked.text) :
    expected = asked ∧ found = met := by
  have letters := congrArg String.toList same
  simp only [String.toList_append, List.append_assoc, List.append_cancel_left_eq] at letters
  obtain ⟨founds, behind⟩ := EntityKind.prefixFree_text _ _ _ _ letters
  have expecteds := String.toList_inj.1 (List.append_cancel_left behind)
  exact ⟨EntityKind.prefixFree_text.injective expecteds, founds⟩

theorem eq_of_parts (prints : PrintsNumber functionText) {one other : ResolveError}
    (leads : (one.sentence functionText).lead = (other.sentence functionText).lead)
    (subjects : (one.sentence functionText).subject = (other.sentence functionText).subject)
    (rests : (one.sentence functionText).rest = (other.sentence functionText).rest) :
    one = other := by
  -- Each variant has a lead of its own.
  cases one <;> cases other <;> unfold sentence at leads subjects rests <;>
    simp only [String.reduceEq, String.empty_eq_iff, Subject.var.injEq, Subject.name.injEq,
      String.append_right_inj] at leads subjects rests
  case unresolved.unresolved => rw [subjects]
  case unexpectedKind.unexpectedKind =>
    obtain ⟨expecteds, founds⟩ := kinds_inj rests
    rw [subjects, expecteds, founds]
  case localNotFound.localNotFound => rw [subjects, prints.injective rests]
  case unknownExport.unknownExport => rw [subjects]

end ResolveError

namespace RegisterError

def sentence : RegisterError → Sentence
  | alreadyBound var existing =>
      ⟨"", .var var, " is already bound to a " ++ existing.text, by simp⟩
  | notLabelBearing node => ⟨"expression ", .node node, " does not bind any label", by simp⟩
  | duplicateExport name => ⟨"export ", .name name, " already exists", by simp⟩
  | duplicateLocal name => ⟨"local ", .name name, " is declared more than once", by simp⟩

theorem text_sentence (error : RegisterError) : error.sentence.text = error.message := by
  rw [← String.toList_inj, Sentence.toList_text]
  cases error <;> unfold sentence message <;> simp [Subject.text, toString_string]

theorem eq_of_parts {one other : RegisterError}
    (leads : one.sentence.lead = other.sentence.lead)
    (subjects : one.sentence.subject = other.sentence.subject)
    (rests : one.sentence.rest = other.sentence.rest) : one = other := by
  -- Each variant has a lead of its own.
  cases one <;> cases other <;> unfold sentence at leads subjects rests <;>
    simp only [String.reduceEq, String.empty_eq_iff, Subject.var.injEq, Subject.name.injEq,
      Subject.node.injEq, String.append_right_inj] at leads subjects rests
  case alreadyBound.alreadyBound =>
    rw [subjects, EntityKind.prefixFree_text.injective rests]
  case notLabelBearing.notLabelBearing => rw [subjects]
  case duplicateExport.duplicateExport => rw [subjects]
  case duplicateLocal.duplicateLocal => rw [subjects]

end RegisterError

/-- An error of one type does not have the parts of an error of the other. -/
theorem parts_ne {one : ResolveError} {other : RegisterError}
    (leads : (one.sentence functionText).lead = other.sentence.lead)
    (subjects : (one.sentence functionText).subject = other.sentence.subject) :
    (one.sentence functionText).rest ≠ other.sentence.rest := by
  intro rests
  -- Of the two that start with "local", one goes on with a var and the other with a name.
  cases one <;> cases other <;>
    unfold ResolveError.sentence RegisterError.sentence at leads subjects rests <;>
    simp only [String.reduceEq, String.empty_eq_iff, reduceCtorEq] at leads subjects
  -- Both start with the var, and then "refers" stands against "is".
  case unexpectedKind.alreadyBound =>
    have letters := congrArg String.toList rests
    simp only [String.toList_append, String.reduceToList, List.cons_append, List.nil_append,
      List.append_assoc, List.cons.injEq, Char.reduceEq, false_and, and_false] at letters

/-! ## Errors of both types -/

/-- The message of an error of either type. -/
def errorText (functionText : Nat → String) : ResolveError ⊕ RegisterError → String :=
  Sum.elim (ResolveError.message functionText) RegisterError.message

/-- The parts of the message of an error of either type. -/
def errorSentence (functionText : Nat → String) : ResolveError ⊕ RegisterError → Sentence :=
  Sum.elim (ResolveError.sentence functionText) RegisterError.sentence

theorem text_errorSentence (error : ResolveError ⊕ RegisterError) :
    (errorSentence functionText error).text = errorText functionText error := by
  cases error with
  | inl error => exact error.text_sentence
  | inr error => exact error.text_sentence

theorem errorText_injective (prints : PrintsNumber functionText) :
    Function.Injective (errorText functionText) := by
  intro one other same
  rw [← text_errorSentence, ← text_errorSentence] at same
  obtain ⟨leads, subjects, rests⟩ := Sentence.parts_eq_of_text same
  match one, other with
  | .inl one, .inl other =>
    exact congrArg Sum.inl (ResolveError.eq_of_parts prints leads subjects rests)
  | .inr one, .inr other => exact congrArg Sum.inr (RegisterError.eq_of_parts leads subjects rests)
  | .inl one, .inr other => exact absurd rests (parts_ne leads subjects)
  | .inr one, .inl other => exact absurd rests.symm (parts_ne leads.symm subjects.symm)

/-- The same name, as a var and alone. -/
example :
    errorText positionText (.inl (.unresolved (.named ⟨7⟩))) =
      "unresolved reference Name(Name(7))" ∧
    errorText positionText (.inr (.duplicateLocal ⟨7⟩)) =
      "local Name(7) is declared more than once" := by
  decide +kernel

/-- **The message of an error identifies it.**  Where functions are shown with their number, two
errors, each of either type, have the same message exactly if they are the same error with the same
fields.  What a message is about can not be mistaken either: an index, a name as a var, a name
alone, a node and the unset var are written differently whatever their numbers are, and none is the
beginning of another, so it does not depend on what stands behind them. -/
theorem errorText_identifies (prints : PrintsNumber functionText) :
    (∀ one other : ResolveError ⊕ RegisterError,
      errorText functionText one = errorText functionText other ↔ one = other) ∧
    ∀ (one other : Subject) (rest tail : String),
      one.text ++ rest = other.text ++ tail ↔ one = other ∧ rest = tail := by
  constructor
  · intro one other
    exact (errorText_injective prints).eq_iff
  · intro one other rest tail
    exact Subject.prefixFree_text.append_eq_iff

/-- One number as an index, a name, a node and a function, in messages that start alike. -/
theorem errorText_identifies_of_seven :
    let errors : List (ResolveError ⊕ RegisterError) :=
      [.inl (.unresolved .unset), .inl (.unresolved (.index 7)), .inl (.unresolved (.named ⟨7⟩)),
        .inl (.localNotFound (.named ⟨7⟩) 7), .inl (.localNotFound (.named ⟨7⟩) 70),
        .inr (.duplicateLocal ⟨7⟩), .inr (.notLabelBearing ⟨7⟩)]
    PrintsNumber positionText ∧ (errors.map (errorText positionText)).Nodup := by
  intro errors
  have identifies := (errorText_identifies printsNumber_positionText).1
  refine ⟨printsNumber_positionText, List.Nodup.map (fun one other same => ?_) (by decide)⟩
  exact (identifies one other).1 same

end TreeIR
