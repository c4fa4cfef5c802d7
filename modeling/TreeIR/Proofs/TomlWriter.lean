/-
# TreeIR.Proofs.TomlWriter -- a document is read back from the text written for it

Writing and reading meet at the list of statements that a document of tables comes from
(`statementsOf`): a header for each table and a pair for each of its integers.

* The text is these statements.  Each line is the first statement of the text it begins
  (`IsText.header`, `IsText.integer`), so the lines of a table are its statements, whatever
  follows (`exists_pairs?`), and those of all tables are all of them (`exists_tables?`).
* The statements make up the document.  As no key stands twice, every pair and every table finds
  its key free and is put behind what is there (`insertAll?_integers`, `foldlM_addTo?`).

What is written had only integers that fit (`inRange_of_write?`), so others are refused.  With that
the writer keeps the laws of printing (`codec_prints`).
-/
import TreeIR.Proofs.TomlLines
import TreeIR.Proofs.TomlRange

namespace TreeIR.Toml

set_option autoImplicit false

variable {c : Char} {rest text lines : List Char} {key name : String} {n : Int}
  {statement : Statement} {statements : List Statement} {pairs : List (String × Int)}
  {tables : List (String × List (String × Int))} {root entries : Entries} {value : Value}

/-! ## The statements of a text -/

/-- The text is the list of statements; reading it takes no more steps than it has letters. -/
def IsText (statements : List Statement) (text : List Char) : Prop :=
  ∀ bound, text.length < bound → statements? bound text = some statements

namespace IsText

theorem nil : IsText [] [] := by
  intro bound long
  obtain ⟨bound, rfl⟩ := Nat.exists_eq_add_of_lt long
  rfl

/-- A blank line says nothing. -/
theorem blank (isText : IsText statements rest) : IsText statements ('\n' :: rest) := by
  intro bound long
  cases bound with
  | zero => cases long
  | succ bound => exact isText bound (Nat.lt_of_succ_lt_succ long)

/-- A statement up to the line end is the first of the text. -/
theorem line (isText : IsText statements rest) (first : c = '[' ∨ isScalarChar c = true)
    (read : statement? (c :: text) = some (statement, '\n' :: rest))
    (shorter : rest.length ≤ text.length) : IsText (statement :: statements) (c :: text) := by
  intro bound long
  cases bound with
  | zero => cases long
  | succ bound =>
    have start : skipBlanks (c :: text) = c :: text := by
      rcases first with rfl | scalar
      · rfl
      · exact skipBlanks_of_isScalarChar scalar
    have code : ¬(c = '#' ∨ c = '\n' ∨ c = '\r') := by
      rcases first with rfl | scalar
      · decide
      · simp [ne_of_isScalarChar scalar (d := '#') rfl, ne_of_isScalarChar scalar (d := '\n') rfl,
          ne_of_isScalarChar scalar (d := '\r') rfl]
    have ended : restOfLine? ('\n' :: rest) = some rest := rfl
    have others : statements? bound rest = some statements :=
      isText bound (Nat.lt_of_le_of_lt shorter (Nat.lt_of_succ_lt_succ long))
    rw [statements?, start]
    simp only [if_neg code, read, ended, others, Option.bind_eq_bind, Option.bind_some,
      Option.pure_def]

theorem header (isText : IsText statements rest) (bare : BareKey name.toList) :
    IsText (.header false [name] :: statements)
      ('[' :: (name.toList ++ ']' :: '\n' :: rest)) := by
  have read := statement?_header bare ('\n' :: rest)
  rw [String.ofList_toList] at read
  refine isText.line (.inl rfl) read ?_
  simp only [List.length_append, List.length_cons]
  omega

theorem integer (isText : IsText statements rest) (bare : BareKey key.toList)
    (fits : IsInt64 n) :
    IsText (.pair [key] (.integer n) :: statements)
      (key.toList ++ ' ' :: '=' :: ' ' :: (Writer.integer n ++ '\n' :: rest)) := by
  have read := statement?_integer bare fits rest
  rw [String.ofList_toList] at read
  obtain ⟨c, more, letters, first⟩ := bare.exists_cons
  rw [letters, List.cons_append] at read ⊢
  refine isText.line (.inr first) read ?_
  simp only [List.length_append, List.length_cons]
  omega

end IsText

/-! ## What is written -/

namespace Writer

theorem pairs?_cons (bare : BareKey key.toList) (fits : IsInt64 n)
    (written : pairs? entries = some lines) :
    pairs? ((key, .integer n) :: entries) =
      some (key.toList ++ ' ' :: '=' :: ' ' :: (integer n ++ '\n' :: lines)) := by
  rw [pairs?, if_pos ⟨bare, fits⟩, written]
  rfl

theorem tables?_cons {inner : Entries} {gap : List Char} (bare : BareKey name.toList)
    (inside : pairs? inner = some lines) (written : tables? ['\n'] entries = some text) :
    tables? gap ((name, .table .header inner) :: entries) =
      some (gap ++ '[' :: (name.toList ++ ']' :: '\n' :: (lines ++ text))) := by
  rw [tables?, if_pos bare, inside, written]
  rfl

/-- A text starts with the bracket of the first table, if there is one. -/
theorem dropMark_of_tables? (written : tables? [] entries = some text) : dropMark text = text := by
  match entries with
  | [] =>
    cases written
    rfl
  | (name, .table origin inner) :: entries =>
    rw [tables?, Option.ite_none_right_eq_some] at written
    obtain ⟨-, written⟩ := written
    obtain ⟨lines, -, written⟩ := Option.bind_eq_some_iff.1 written
    obtain ⟨more, -, ⟨⟩⟩ := Option.bind_eq_some_iff.1 written
    rfl

end Writer

/-- The statements of a table. -/
def pairsOf (pairs : List (String × Int)) : List Statement :=
  pairs.map fun pair => .pair [pair.1] (.integer pair.2)

/-- The statements of a document of tables. -/
def statementsOf (tables : List (String × List (String × Int))) : List Statement :=
  tables.flatMap fun table => .header false [table.1] :: pairsOf table.2

/-- The lines of a table are its statements, whatever follows. -/
theorem exists_pairs? (bare : ∀ pair ∈ pairs, BareKey pair.1.toList)
    (fits : ∀ pair ∈ pairs, IsInt64 pair.2) :
    ∃ lines, Writer.pairs? (.ofIntegers pairs) = some lines ∧
      ∀ statements rest, IsText statements rest →
        IsText (pairsOf pairs ++ statements) (lines ++ rest) := by
  induction pairs with
  | nil => exact ⟨[], rfl, fun _ _ isText => isText⟩
  | cons pair pairs ih =>
    rw [List.forall_mem_cons] at bare fits
    obtain ⟨lines, written, isText⟩ := ih bare.2 fits.2
    refine ⟨_, Writer.pairs?_cons bare.1 fits.1 written, fun statements rest follows => ?_⟩
    have first := (isText statements rest follows).integer bare.1 fits.1
    simpa [pairsOf] using first

/-- The lines of all tables are all statements; a gap in front may be empty or a blank line. -/
theorem exists_tables? (bare : ∀ table ∈ tables, BareKey table.1.toList)
    (keys : ∀ table ∈ tables, ∀ pair ∈ table.2, BareKey pair.1.toList)
    (fits : ∀ table ∈ tables, ∀ pair ∈ table.2, IsInt64 pair.2) (gap : List Char)
    (silent : ∀ statements rest, IsText statements rest → IsText statements (gap ++ rest)) :
    ∃ text, Writer.tables? gap (.ofTables tables) = some text ∧
      IsText (statementsOf tables) text := by
  induction tables generalizing gap with
  | nil => exact ⟨[], rfl, .nil⟩
  | cons table tables ih =>
    rw [List.forall_mem_cons] at bare keys fits
    obtain ⟨text, written, isText⟩ := ih bare.2 keys.2 fits.2 ['\n'] fun _ _ => .blank
    obtain ⟨lines, inside, follows⟩ := exists_pairs? keys.1 fits.1
    exact ⟨_, Writer.tables?_cons bare.1 inside written,
      silent _ _ ((follows _ _ isText).header bare.1)⟩

/-! ## What the statements make up -/

namespace Entries

theorem find?_eq_none_iff : entries.find? key = none ↔ key ∉ entries.map Prod.fst := by
  fun_induction find? entries key <;> simp_all [eq_comm]

/-- Among keys of which no two are the same, one that comes later is free. -/
theorem find?_eq_none_of_nodup {others : List String}
    (nodup : (entries.map Prod.fst ++ key :: others).Nodup) : entries.find? key = none :=
  find?_eq_none_iff.2 fun taken =>
    (List.nodup_append.1 nodup).2.2 key taken key List.mem_cons_self rfl

/-- A key that is free is put behind the others. -/
theorem put_of_free (free : entries.find? key = none) :
    entries.put key value = entries ++ [(key, value)] := by
  fun_induction put entries key value <;> simp_all [find?]

end Entries

theorem insertAll?_integers (root : Entries)
    (nodup : (root.map Prod.fst ++ pairs.map Prod.fst).Nodup) :
    Entries.insertAll? (pairs.map fun pair => ([pair.1], .integer pair.2)) root =
      some (root ++ .ofIntegers pairs) := by
  induction pairs generalizing root with
  | nil => simp [Entries.insertAll?, Entries.ofIntegers]
  | cons pair pairs ih =>
    have free : root.find? pair.1 = none := Entries.find?_eq_none_of_nodup nodup
    have more : Entries.insertAll? (pairs.map fun pair => ([pair.1], .integer pair.2))
        (root ++ [(pair.1, .integer pair.2)]) =
          some (root ++ [(pair.1, .integer pair.2)] ++ Entries.ofIntegers pairs) :=
      ih _ (by simpa using nodup)
    simp only [List.map_cons, Entries.insertAll?, Entries.insert?, free, Option.isNone_none,
      if_true, Entries.put_of_free free, Option.bind_eq_bind, Option.bind_some, more]
    simp [Entries.ofIntegers]

/-- The section of a table. -/
def sectionOf (table : String × List (String × Int)) : Section :=
  ⟨false, [table.1], table.2.map fun pair => ([pair.1], .integer pair.2)⟩

theorem sections_pairsOf :
    sections (pairsOf pairs ++ statements) =
      (pairs.map (fun pair => ([pair.1], .integer pair.2)) ++ (sections statements).1,
        (sections statements).2) := by
  induction pairs with
  | nil => rfl
  | cons pair pairs ih =>
    show sections (.pair [pair.1] (.integer pair.2) :: (pairsOf pairs ++ statements)) = _
    rw [sections, ih]
    rfl

theorem sections_statementsOf :
    sections (statementsOf tables) = ([], tables.map sectionOf) := by
  induction tables with
  | nil => rfl
  | cons table tables ih =>
    show sections (.header false [table.1] :: (pairsOf table.2 ++ statementsOf tables)) = _
    rw [sections, sections_pairsOf, ih, List.append_nil]
    rfl

/-- A section whose name is free is put behind the tables that are there. -/
theorem addTo?_sectionOf {table : String × List (String × Int)}
    (free : root.find? table.1 = none) (nodup : (table.2.map Prod.fst).Nodup) :
    (sectionOf table).addTo? root =
      some (root ++ [(table.1, .table .header (Entries.ofIntegers table.2))]) := by
  have inside := insertAll?_integers [] nodup
  show Entries.openTable? table.1 (sectionOf table).pairs root = _
  rw [Entries.openTable?, free]
  simp only [sectionOf, inside, List.nil_append, Option.bind_eq_bind, Option.bind_some,
    Option.pure_def, Entries.put_of_free free]

theorem foldlM_addTo? (root : Entries)
    (nodup : (root.map Prod.fst ++ tables.map Prod.fst).Nodup)
    (keys : ∀ table ∈ tables, (table.2.map Prod.fst).Nodup) :
    (tables.map sectionOf).foldlM (fun root opened => opened.addTo? root) root =
      some (root ++ .ofTables tables) := by
  induction tables generalizing root with
  | nil => simp [Entries.ofTables]
  | cons table tables ih =>
    rw [List.forall_mem_cons] at keys
    have free : root.find? table.1 = none := Entries.find?_eq_none_of_nodup nodup
    rw [List.map_cons, List.foldlM_cons, addTo?_sectionOf free keys.1, Option.bind_eq_bind,
      Option.bind_some, ih _ (by simpa using nodup) keys.2]
    simp [Entries.ofTables]

theorem ofStatements?_statementsOf (names : (tables.map Prod.fst).Nodup)
    (keys : ∀ table ∈ tables, (table.2.map Prod.fst).Nodup) :
    ofStatements? (statementsOf tables) = some (.ofTables tables) := by
  simp only [ofStatements?, sections_statementsOf, Entries.insertAll?, Option.bind_eq_bind,
    Option.bind_some]
  exact foldlM_addTo? [] names keys

/-! ## What is not written -/

namespace Writer

theorem inRange_of_pairs? (written : pairs? entries = some lines) : entries.InRange := by
  induction entries generalizing lines with
  | nil => exact Entries.inRange_nil
  | cons entry entries ih =>
    obtain ⟨key, value⟩ := entry
    cases value with
    | integer n =>
      rw [pairs?, Option.ite_none_right_eq_some] at written
      obtain ⟨⟨-, fits⟩, written⟩ := written
      obtain ⟨more, others, -⟩ := Option.bind_eq_some_iff.1 written
      exact (ih others).cons (Value.inRange_integer fits) key
    | _ => cases written

theorem inRange_of_tables? {gap : List Char} (written : tables? gap entries = some text) :
    entries.InRange := by
  induction entries generalizing gap text with
  | nil => exact Entries.inRange_nil
  | cons entry entries ih =>
    obtain ⟨name, value⟩ := entry
    cases value with
    | table origin inner =>
      rw [tables?, Option.ite_none_right_eq_some] at written
      obtain ⟨-, written⟩ := written
      obtain ⟨lines, inside, written⟩ := Option.bind_eq_some_iff.1 written
      obtain ⟨more, others, -⟩ := Option.bind_eq_some_iff.1 written
      exact (ih others).cons (Value.inRange_table.2 (inRange_of_pairs? inside)) name
    | _ => cases written

end Writer

/-! ## The laws of printing -/

/-- A document of tables is read back from the text that is written for it. -/
theorem exists_write? (names : BareKeys tables) (keys : ∀ table ∈ tables, BareKeys table.2)
    (fits : ∀ table ∈ tables, ∀ pair ∈ table.2, IsInt64 pair.2) :
    ∃ text, write? (.ofTables tables) = some text ∧ codec.read? text = some (.ofTables tables) := by
  obtain ⟨letters, written, isText⟩ :=
    exists_tables? names.bare (fun table isTable => (keys table isTable).bare) fits []
      fun _ _ isText => isText
  refine ⟨String.ofList letters, by rw [write?, written, Option.map_some], ?_⟩
  have unmarked : dropMark letters = letters := Writer.dropMark_of_tables? written
  rw [Codec.read?_eq_some_iff]
  refine ⟨statementsOf tables, ?_, ofStatements?_statementsOf names.nodup
    fun table isTable => (keys table isTable).nodup⟩
  show statements? ((dropMark (String.ofList letters).toList).length + 1) _ = _
  rw [String.toList_ofList, unmarked]
  exact isText _ (Nat.lt_succ_self _)

/-- What is written has no integer out of range. -/
theorem inRange_of_write? {document : Entries} {source : String}
    (written : write? document = some source) : document.whole.InRange := by
  obtain ⟨letters, written, -⟩ := Option.map_eq_some_iff.1 written
  exact Value.inRange_table.2 (Writer.inRange_of_tables? written)

/-- The writer does what can be relied on. -/
theorem codec_prints : codec.Prints where
  toRecords := codec_records
  readBack names keys fits := by
    obtain ⟨text, written, read⟩ := exists_write? names keys fits
    exact ⟨text, _, written, read, fun _ => rfl⟩
  refused large := Option.eq_none_iff_forall_ne_some.2 fun _ written =>
    large (inRange_of_write? written)

end TreeIR.Toml
