/-
# TreeIR.Proofs.SignatureText -- a written signature can be read back

The name in front of a written signature may be any text, also one with parentheses, commas or
an arrow in it, so a signature is read from its end.  No result contains a closing parenthesis:
the last one ends the params.  No param contains an opening one: the last of these starts the
params, and what stands before it is the name (`append_inj_of_last`).  Between the two stand the
types, which are a prefix code (`text_append_inj`), so the list of them can be read from its
start; the empty list is the empty text and `void` is not.

Reading back gives the name, the result and the types of the params, which is what `accepts`
looks at.  Hence a signature accepts the functions that would be written as it is, under its own
name.
-/
import Mathlib
import TreeIR.Signature

namespace TreeIR

set_option autoImplicit false

/-! ## Types -/

namespace ValueType

/-- No written type is the beginning of another. -/
theorem text_append_inj {type other : ValueType} {rest tail : List Char}
    (same : type.text.toList ++ rest = other.text.toList ++ tail) :
    type = other ∧ rest = tail := by
  cases type <;> cases other <;> simp_all [text]

theorem mem_text {type : ValueType} {letter : Char} (member : letter ∈ type.text.toList) :
    letter ≠ '(' ∧ letter ≠ ')' := by
  cases type <;> simp [text] at member <;> rcases member with rfl | rfl | rfl | rfl <;> decide

end ValueType

namespace Signature

variable {signature one other : Signature} {types others : List ValueType}

/-! ## The parts of a text -/

/-- The types of the params, in order. -/
def paramTypes (signature : Signature) : List ValueType := signature.params.map Slot.type

/-- Types behind a first one. -/
def moreText (types : List ValueType) : List Char :=
  types.flatMap fun type => ", ".toList ++ type.text.toList

/-- What stands between the parentheses. -/
def typesText : List ValueType → List Char
  | [] => []
  | type :: rest => type.text.toList ++ moreText rest

/-- What stands behind the parentheses. -/
def resultText : ValueType → List Char
  | .void => []
  | type => " -> ".toList ++ type.text.toList

theorem intercalate_text (types : List ValueType) :
    (", ".toList).intercalate (types.map fun type => type.text.toList) = typesText types := by
  cases types with
  | nil => rfl
  | cons type rest =>
    induction rest generalizing type with
    | nil => simp [typesText, moreText]
    | cons next rest ih =>
      have later := ih next
      rw [List.map_cons] at later
      rw [List.map_cons, List.map_cons, List.intercalate_cons_cons, later, typesText, typesText,
        moreText, moreText, List.flatMap_cons]
      simp only [List.append_assoc]

theorem toList_textAs (signature : Signature) (name : String) :
    (signature.textAs name).toList = name.toList ++
      '(' :: (typesText signature.paramTypes ++ ')' :: resultText signature.result) := by
  have params :
      (String.intercalate ", " (signature.params.map fun param => param.type.text)).toList =
        typesText signature.paramTypes := by
    rw [String.toList_intercalate, ← intercalate_text, paramTypes, List.map_map, List.map_map]
    rfl
  have head (text : String) : toString text = text := rfl
  rw [textAs, ← params]
  cases signature.result <;> simp [head, resultText]

/-! ## Reading from the end -/

/-- The last occurrence of a letter cuts a text in one way only. -/
theorem append_inj_of_last {letter : Char} {before earlier after later : List Char}
    (last : letter ∉ after) (final : letter ∉ later)
    (same : before ++ letter :: after = earlier ++ letter :: later) :
    before = earlier ∧ after = later := by
  -- If one cut lay behind the other, the letter would stand once more behind the earlier one.
  rcases List.append_eq_append_iff.1 same with ⟨between, left, right⟩ | ⟨between, left, right⟩
  · cases between with
    | nil => exact ⟨by simpa using left.symm, by simpa using right⟩
    | cons first rest =>
      obtain ⟨rfl, rfl⟩ := List.cons.inj right
      exact absurd (List.mem_append_right rest (.head later)) last
  · cases between with
    | nil => exact ⟨by simpa using left, by simpa using right.symm⟩
    | cons first rest =>
      obtain ⟨rfl, rfl⟩ := List.cons.inj right
      exact absurd (List.mem_append_right rest (.head after)) final

theorem notMem_typesText (types : List ValueType) : '(' ∉ typesText types := by
  have apart (type : ValueType) : '(' ∉ type.text.toList :=
    fun member => (ValueType.mem_text member).1 rfl
  cases types with
  | nil => simp [typesText]
  | cons type rest => simp [typesText, moreText, apart]

theorem notMem_resultText (result : ValueType) : ')' ∉ resultText result := by
  cases result <;> decide

theorem resultText_inj {result second : ValueType} :
    resultText result = resultText second ↔ result = second := by
  cases result <;> cases second <;> decide

theorem moreText_inj (same : moreText types = moreText others) : types = others := by
  induction types generalizing others with
  | nil =>
    cases others with
    | nil => rfl
    | cons other others => simp [moreText] at same
  | cons type types ih =>
    cases others with
    | nil => simp [moreText] at same
    | cons other others =>
      rw [moreText, moreText, List.flatMap_cons, List.flatMap_cons, List.append_assoc,
        List.append_assoc, List.append_cancel_left_eq] at same
      obtain ⟨rfl, rest⟩ := ValueType.text_append_inj same
      rw [ih rest]

/-- The empty list is not written like a list of one `void`. -/
theorem typesText_inj (same : typesText types = typesText others) : types = others := by
  cases types with
  | nil =>
    cases others with
    | nil => rfl
    | cons other others => cases other <;> simp [typesText, ValueType.text] at same
  | cons type types =>
    cases others with
    | nil => cases type <;> simp [typesText, ValueType.text] at same
    | cons other others =>
      obtain ⟨rfl, rest⟩ := ValueType.text_append_inj same
      rw [moreText_inj rest]

theorem textAs_inj {name second : String} :
    one.textAs name = other.textAs second ↔
      name = second ∧ one.result = other.result ∧ one.paramTypes = other.paramTypes := by
  constructor
  · intro same
    have letters := congrArg String.toList same
    rw [toList_textAs, toList_textAs, ← List.cons_append, ← List.cons_append, ← List.append_assoc,
      ← List.append_assoc] at letters
    obtain ⟨heads, results⟩ :=
      append_inj_of_last (notMem_resultText _) (notMem_resultText _) letters
    obtain ⟨names, types⟩ := append_inj_of_last (notMem_typesText _) (notMem_typesText _) heads
    exact ⟨String.toList_inj.1 names, resultText_inj.1 results, typesText_inj types⟩
  · rintro ⟨rfl, results, types⟩
    rw [← String.toList_inj, toList_textAs, toList_textAs, results, types]

/-! ## Accepted functions -/

/-- Types are the same in order if there are as many and those side by side are the same. -/
theorem map_type_eq_iff {slots others : List Slot} :
    slots.map Slot.type = others.map Slot.type ↔
      slots.length = others.length ∧ ∀ pair ∈ slots.zip others, pair.1.type = pair.2.type := by
  rw [← List.forall₂_eq_eq_eq, List.forall₂_map_left_iff, List.forall₂_map_right_iff,
    List.forall₂_iff_zip]
  simp

/-- Comparing lengths and pairs is comparing the lists of types. -/
theorem accepts_iff {func : Func} :
    signature.accepts func = true ↔
      signature.result = func.result ∧ signature.paramTypes = func.params.map Slot.type := by
  rw [paramTypes, map_type_eq_iff]
  simp only [accepts, Bool.and_eq_true, beq_iff_eq, List.all_eq_true, and_assoc]

theorem text_of_known {names : Interner} {name : String}
    (known : names.lookup signature.name = .ok name) :
    signature.text names = .ok (signature.textAs name) := by
  rw [text, known]
  rfl

/-- **A written signature says what a signature is compared by.**  For names of any text: the
written forms of two signatures whose names are known are the same exactly if the texts of the
names, the results and the types of the params are the same, in number and order; the names of
slots do not show.  A signature accepts a function exactly if the function's result and params,
under the signature's name, are written as the signature is, that is, if the results are the
same, and the types of params side by side, and neither has params left over.  On nothing else of
the signature or the function does it depend. -/
theorem text_decodable (names : Interner) (one other : Signature) {name second : String}
    (known : names.lookup one.name = .ok name) (knownOther : names.lookup other.name = .ok second) :
    (∃ text written, one.text names = .ok text ∧ other.text names = .ok written ∧
      (text = written ↔
        name = second ∧ one.result = other.result ∧ one.paramTypes = other.paramTypes)) ∧
    (∀ func : Func, one.accepts func = true ↔
      one.text names = { one with result := func.result, params := func.params }.text names) ∧
    (∀ func : Func, one.accepts func = true ↔
      one.result = func.result ∧ one.params.length = func.params.length ∧
      ∀ pair ∈ one.params.zip func.params, pair.1.type = pair.2.type) ∧
    ∀ (func alike : Func), one.result = other.result → one.paramTypes = other.paramTypes →
      func.result = alike.result → func.params.map Slot.type = alike.params.map Slot.type →
      one.accepts func = other.accepts alike := by
  refine ⟨⟨_, _, text_of_known known, text_of_known knownOther, textAs_inj⟩, ?_, ?_, ?_⟩
  · intro func
    let like : Signature := { one with result := func.result, params := func.params }
    have written : like.text names = .ok (like.textAs name) := text_of_known known
    rw [accepts_iff, text_of_known known, written, Except.ok.injEq, textAs_inj]
    exact (and_iff_right rfl).symm
  · intro func
    rw [accepts_iff, paramTypes, map_type_eq_iff]
  · intro func alike results types resultsOfFuncs typesOfFuncs
    rw [Bool.eq_iff_iff, accepts_iff, accepts_iff, results, types, resultsOfFuncs, typesOfFuncs]

/-- A name that is written like the whole of the other signature, which accepts a function with
other names and locals. -/
theorem text_decodable_of_written_name :
    let names := (Interner.empty.add "f(i32, none) -> i32").add "f"
    let one : Signature := ⟨⟨0⟩, .void, []⟩
    let other : Signature := ⟨⟨1⟩, .i32, [⟨⟨0⟩, .i32⟩, ⟨⟨0⟩, .void⟩]⟩
    let func : Func := ⟨⟨7⟩, .i32, [⟨⟨8⟩, .i32⟩, ⟨⟨9⟩, .void⟩], [⟨⟨1⟩, .f64⟩], some ⟨3⟩⟩
    names.lookup one.name = .ok "f(i32, none) -> i32" ∧ names.lookup other.name = .ok "f" ∧
    one.textAs "f(i32, none) -> i32" = other.textAs "f" ++ "()" ∧
    one.text names ≠ other.text names ∧
    other.accepts func = true := by
  intro names one other func
  have known : names.lookup one.name = .ok "f(i32, none) -> i32" := by decide +kernel
  have knownOther : names.lookup other.name = .ok "f" := by decide +kernel
  obtain ⟨⟨text, written, shown, shownOther, same⟩, -⟩ :=
    text_decodable names one other known knownOther
  obtain ⟨-, -, accepted, -⟩ := text_decodable names other one knownOther known
  refine ⟨known, knownOther, by decide +kernel, ?_, (accepted func).2 (by decide)⟩
  rw [shown, shownOther, ne_eq, Except.ok.injEq, same]
  decide

end Signature

end TreeIR
