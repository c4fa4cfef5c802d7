/-
# TreeIR.Proofs.TomlLines -- a written line is read as what it was written for

A line is read from the inside out: every part is followed by a character that cannot
belong to it, so its reader takes the whole part and leaves the rest.

* The digits of a number are read as this number.  They have no leading zero
  (`head?_toDigits`), so `decimal?` takes them, and no mark of a base, so `integer?`
  reads them in base ten, with or without a sign (`integer?_integer`).
* A run of scalar characters up to the line end is one value (`value?_of_line`).
* A bare key is a path of one part (`BareKey.key?_eq`).

So a bare key in brackets is a header (`statement?_header`), and a bare key and an integer
are a pair (`statement?_integer`).
-/
import TreeIR.Toml.Writer

namespace TreeIR.Toml

set_option autoImplicit false

variable {c : Char} {rest text : List Char} {n : Nat} {z : Int}

/-! ## The digits of a number -/

/-- Digits that nothing separates stand as they are. -/
theorem ungroup?_of_digits {isDigit : Char → Bool} (separator : isDigit '_' = false)
    {digits : List Char} (nonempty : digits ≠ [])
    (all : ∀ c ∈ digits, isDigit c = true) : ungroup? isDigit digits = some digits := by
  fun_induction ungroup? isDigit digits with
  | case1 => exact absurd rfl nonempty
  | case2 c digit => rfl
  | case6 c rest more unseparated digit ih =>
    rw [ih more fun d inRest => all d (List.mem_cons_of_mem c inRest)]
    rfl
  | _ => simp_all

/-- Only zero is written with a zero in front. -/
theorem head?_toDigits : (Nat.toDigits 10 n).head? = some '0' ↔ n = 0 := by
  induction n using Nat.strongRecOn with
  | ind n ih =>
    rw [Nat.toDigits_eq_if (by omega)]
    split
    · simp [Nat.digitChar_eq_zero]
    · -- The first digit is the one of a tenth of the number, which is not zero.
      have front := ih (n / 10) (by omega)
      rw [List.head?_append, Option.or_of_isSome (by simp [Nat.toDigits_ne_nil]), front]
      omega

theorem isDigit_of_mem_toDigits (inDigits : c ∈ Nat.toDigits 10 n) : c.isDigit = true :=
  Nat.isDigit_of_mem_toDigits (by omega) (by omega) inDigits

theorem decimal?_toDigits (n : Nat) :
    decimal? (Nat.toDigits 10 n) = some (Nat.toDigits 10 n) := by
  have front : ¬((Nat.toDigits 10 n).head? = some '0' ∧ Nat.toDigits 10 n ≠ ['0']) := by
    rintro ⟨zero, long⟩
    rw [head?_toDigits.1 zero] at long
    exact long rfl
  rw [decimal?, ungroup?_of_digits rfl Nat.toDigits_ne_nil fun _ => isDigit_of_mem_toDigits]
  simp [front]

/-- A text of digits is a number in base ten without a sign. -/
theorem integer?_of_digits {digits : List Char} (all : ∀ c ∈ digits, c.isDigit = true) :
    integer? digits = integer?.bounded? ((decimal? digits).map natOfDigits) := by
  unfold integer?
  split <;> simp_all

theorem integer?_toDigits (small : n < integerLimit) :
    integer? (Nat.toDigits 10 n) = some (n : Int) := by
  have value : natOfDigits (Nat.toDigits 10 n) = n := Nat.ofDigitChars_ten_toDigits
  rw [integer?_of_digits fun _ => isDigit_of_mem_toDigits, decimal?_toDigits, Option.map_some,
    value]
  exact if_pos small

/-- So it is with a sign. -/
theorem integer?_integer (fits : IsInt64 z) : integer? (Writer.integer z) = some z := by
  unfold Writer.integer
  split
  case isTrue negative =>
    have value : natOfDigits (Nat.toDigits 10 z.natAbs) = z.natAbs :=
      Nat.ofDigitChars_ten_toDigits
    have small : z.natAbs ≤ integerLimit := by
      have := fits.1
      omega
    have sign : -(z.natAbs : Int) = z := by omega
    simp only [integer?, decimal?_toDigits, Option.bind_eq_bind, Option.bind_some, value,
      if_pos small, sign]
  case isFalse positive =>
    have same : (z.natAbs : Int) = z := by omega
    rw [integer?_toDigits (Int.ofNat_lt.1 (same.symm ▸ fits.2)), same]

theorem scalar?_integer (fits : IsInt64 z) : scalar? (Writer.integer z) = some (.integer z) := by
  rw [scalar?, integer?_integer fits]

/-! ## Characters that start something else -/

theorem isScalarChar_of_isDigit (digit : c.isDigit = true) : isScalarChar c = true := by
  simp [isScalarChar, Char.isAlphanum, digit]

theorem isScalarChar_of_isBareKeyChar (bare : isBareKeyChar c = true) :
    isScalarChar c = true := by
  simp only [isBareKeyChar, Bool.or_eq_true] at bare
  rcases bare with (alphanumeric | dash) | underscore <;> simp_all [isScalarChar]

/-- Brackets, quotes, blanks and line ends are no scalar characters, so none of these starts
a number or a bare key. -/
theorem ne_of_isScalarChar (scalar : isScalarChar c = true) {d : Char}
    (other : isScalarChar d = false) : c ≠ d := by
  rintro rfl
  exact Bool.false_ne_true (other.symm.trans scalar)

theorem skipBlanks_of_isScalarChar (scalar : isScalarChar c = true) :
    skipBlanks (c :: rest) = c :: rest := by
  have visible : isBlank c = false := by
    simp [isBlank, ne_of_isScalarChar scalar (d := ' ') rfl,
      ne_of_isScalarChar scalar (d := '\t') rfl]
  simp [skipBlanks, visible]

/-! ## Values and keys -/

/-- An unquoted value ends at the line end. -/
theorem takeScalar_of_line {token : List Char} (all : ∀ c ∈ token, isScalarChar c = true)
    (rest : List Char) : takeScalar (token ++ '\n' :: rest) = (token, '\n' :: rest) := by
  have stops : isScalarChar '\n' = false := rfl
  simp [takeScalar, List.takeWhile_append_of_pos all, List.dropWhile_append_of_pos all, stops]

/-- A run of scalar characters up to the line end is a value by itself. -/
theorem value?_of_line (depth : Nat) {token : List Char} (nonempty : token ≠ [])
    (all : ∀ c ∈ token, isScalarChar c = true) (rest : List Char) :
    value? depth (token ++ '\n' :: rest) =
      (scalar? token).map fun value => (value, '\n' :: rest) := by
  have taken := takeScalar_of_line all rest
  obtain ⟨c, token, rfl⟩ := List.exists_cons_of_ne_nil nonempty
  have first : isScalarChar c = true := all c List.mem_cons_self
  rw [List.cons_append] at taken ⊢
  rw [value?.eq_def]
  dsimp only
  split
  case h_5 => rw [taken]
  -- Every other kind of value opens with a bracket, a brace or a quote, and those do not occur.
  all_goals
    rename_i opens
    cases opens
    exact absurd first Bool.false_ne_true

namespace BareKey

variable {key : List Char}

theorem exists_cons (bare : BareKey key) :
    ∃ c more, key = c :: more ∧ isScalarChar c = true := by
  obtain ⟨c, more, rfl⟩ := List.exists_cons_of_ne_nil bare.nonempty
  exact ⟨c, more, rfl, isScalarChar_of_isBareKeyChar (bare.bare c List.mem_cons_self)⟩

/-- A bare key goes up to a character that cannot be in it. -/
theorem keyPart?_eq (bare : BareKey key) (stops : isBareKeyChar c = false) (rest : List Char) :
    keyPart? (key ++ c :: rest) = some (String.ofList key, c :: rest) := by
  have taken : (key ++ c :: rest).takeWhile isBareKeyChar = key := by
    simp [List.takeWhile_append_of_pos bare.bare, stops]
  have left : (key ++ c :: rest).dropWhile isBareKeyChar = c :: rest := by
    simp [List.dropWhile_append_of_pos bare.bare, stops]
  obtain ⟨d, more, rfl, first⟩ := bare.exists_cons
  rw [List.cons_append] at taken left ⊢
  unfold keyPart?
  split
  case h_3 => simp [taken, left]
  all_goals
    rename_i opens
    cases opens
    exact absurd first Bool.false_ne_true

/-- A bare key that no point follows is a path of one part. -/
theorem key?_eq (bare : BareKey key) (stops : isBareKeyChar c = false)
    (last : (skipBlanks (c :: rest)).head? ≠ some '.') :
    key? (key ++ c :: rest) = some ([String.ofList key], skipBlanks (c :: rest)) := by
  have part := bare.keyPart?_eq stops rest
  have here : skipBlanks (key ++ c :: rest) = key ++ c :: rest := by
    obtain ⟨d, more, rfl, first⟩ := bare.exists_cons
    exact skipBlanks_of_isScalarChar first
  rw [key?, maxDepth, keyParts?, here, part]
  simp only [Option.bind_eq_bind, Option.bind_some]
  split
  case h_1 point => simp [point] at last
  case h_2 => rfl

end BareKey

/-! ## Statements -/

/-- One bracket opens a header. -/
theorem statement?_of_bracket (single : c ≠ '[') :
    statement? ('[' :: c :: rest) = header? false (c :: rest) := by
  unfold statement?
  split <;> simp_all

/-- What no bracket opens is a pair. -/
theorem statement?_of_not_bracket (other : c ≠ '[') :
    statement? (c :: rest) = (pair? (value? maxDepth) (c :: rest)).map
      fun (pair, rest) => (.pair pair.1 pair.2, rest) := by
  unfold statement?
  split <;> simp_all

/-- A bare key in brackets is a header. -/
theorem statement?_header {table : List Char} (bare : BareKey table) (rest : List Char) :
    statement? ('[' :: (table ++ ']' :: rest)) =
      some (.header false [String.ofList table], rest) := by
  have key : key? (table ++ ']' :: rest) = some ([String.ofList table], ']' :: rest) :=
    bare.key?_eq rfl nofun
  obtain ⟨c, more, rfl, first⟩ := bare.exists_cons
  rw [List.cons_append] at key ⊢
  rw [statement?_of_bracket (ne_of_isScalarChar first rfl), header?, key]
  rfl

/-- A bare key, the equals sign and a value are a pair. -/
theorem statement?_pair {key : List Char} {value : Value} (bare : BareKey key)
    (first : isScalarChar c = true)
    (read : value? maxDepth (c :: text) = some (value, rest)) :
    statement? (key ++ ' ' :: '=' :: ' ' :: c :: text) =
      some (.pair [String.ofList key] value, rest) := by
  have path : key? (key ++ ' ' :: '=' :: ' ' :: c :: text) =
      some ([String.ofList key], '=' :: ' ' :: c :: text) :=
    bare.key?_eq rfl nofun
  have start : skipBlanks (' ' :: c :: text) = c :: text := skipBlanks_of_isScalarChar first
  obtain ⟨d, more, rfl, letter⟩ := bare.exists_cons
  rw [List.cons_append] at path ⊢
  rw [statement?_of_not_bracket (ne_of_isScalarChar letter rfl), pair?, path]
  simp [start, read]

theorem isScalarChar_of_mem_integer (written : c ∈ Writer.integer z) :
    isScalarChar c = true := by
  unfold Writer.integer at written
  split at written
  · rcases List.mem_cons.1 written with rfl | inDigits
    · rfl
    · exact isScalarChar_of_isDigit (isDigit_of_mem_toDigits inDigits)
  · exact isScalarChar_of_isDigit (isDigit_of_mem_toDigits written)

theorem integer_ne_nil : Writer.integer z ≠ [] := by
  unfold Writer.integer
  split
  · exact List.cons_ne_nil _ _
  · exact Nat.toDigits_ne_nil

/-- A bare key, the equals sign and an integer are a pair. -/
theorem statement?_integer {key : List Char} (bare : BareKey key) (fits : IsInt64 z)
    (rest : List Char) :
    statement? (key ++ ' ' :: '=' :: ' ' :: (Writer.integer z ++ '\n' :: rest)) =
      some (.pair [String.ofList key] (.integer z), '\n' :: rest) := by
  have scalar (c : Char) (written : c ∈ Writer.integer z) : isScalarChar c = true :=
    isScalarChar_of_mem_integer written
  have read := value?_of_line maxDepth integer_ne_nil scalar rest
  rw [scalar?_integer fits] at read
  obtain ⟨c, more, here⟩ : ∃ c more, Writer.integer z = c :: more :=
    List.exists_cons_of_ne_nil integer_ne_nil
  rw [here] at scalar read ⊢
  exact statement?_pair bare (scalar c List.mem_cons_self) read

end TreeIR.Toml
