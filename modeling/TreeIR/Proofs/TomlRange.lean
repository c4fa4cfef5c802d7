/-
# TreeIR.Proofs.TomlRange -- no larger integers than 64 bits hold

An integer was read by `integer?`, which bounds it (`integer?_bounds`).  An inline table holds what
the same readers read (`Keeps`), so by induction on the nesting a value that is read has no integer
out of range where its tables lead (`keeps_value?`), and neither has a pair of a document
(`inRange_of_statements?`).  What a document shows was written in one of its pairs, so its integers
are in range as well (`inRange_of_read?`).  With that the reader keeps the laws of reading
(`codec_reads`).

The order in which an inline table is filled does not matter: adding to a table puts the new value
somewhere and leaves everything else, in the two ways `Sets` and `Grows` describe.
-/
import Mathlib
import TreeIR.Proofs.TomlTables
import TreeIR.Toml.Writer

namespace TreeIR.Toml

set_option autoImplicit false

-- Powers of naturals are the core library's, whatever else is in scope.
attribute [local instance (2000)] instPowNat

variable {text rest : List Char} {value : Value} {n : Int}

/-! ## Integers -/

theorem bounded?_bounds {magnitude : Option Nat}
    (read : integer?.bounded? magnitude = some n) : IsInt64 n := by
  simp only [integer?.bounded?, Option.bind_eq_bind, Option.bind_eq_some_iff,
    Option.ite_none_right_eq_some, Option.some.injEq] at read
  obtain ⟨magnitude, -, small, rfl⟩ := read
  exact ⟨by omega, Int.ofNat_lt.2 small⟩

theorem integer?_bounds (read : integer? text = some n) : IsInt64 n := by
  unfold integer? at read
  split at read
  case h_4 =>
    simp only [Option.bind_eq_bind, Option.bind_eq_some_iff, Option.ite_none_right_eq_some,
      Option.some.injEq] at read
    obtain ⟨digits, -, small, rfl⟩ := read
    have positive : 0 < integerLimit := Nat.two_pow_pos 63
    exact ⟨by omega, by omega⟩
  all_goals exact bounded?_bounds read

/-! ## Values -/

/-- Wherever the tables in a table lead to an integer, it has 64 bits. -/
def Entries.InRange (entries : Entries) : Prop :=
  ∀ key value, entries.find? key = some value → value.InRange

namespace Value

theorem inRange_table {origin : Origin} {entries : Entries} :
    (table origin entries).InRange ↔ Entries.InRange entries := by
  constructor
  · intro range key value found path n reached
    exact range (key :: path) n (by rw [at?, found]; exact reached)
  · intro range path n reached
    cases path with
    | nil => cases reached
    | cons key path =>
      obtain ⟨value, found, reached⟩ := Option.bind_eq_some_iff.1 reached
      exact range key value found path n reached

/-- Only integers and tables lead to integers; rows and arrays are not gone through. -/
theorem inRange_of_leaf (here : ∀ n, value ≠ .integer n)
    (outside : ∀ origin entries, value ≠ .table origin entries) : value.InRange := by
  intro path n reached
  cases path with
  | nil => exact absurd (Option.some.inj reached) (here n)
  | cons key path =>
    cases value with
    | table origin entries => exact absurd rfl (outside origin entries)
    | _ => cases reached

theorem inRange_integer (fits : IsInt64 n) : (integer n).InRange := by
  intro path m reached
  cases path with
  | nil =>
    cases reached
    exact fits
  | cons => cases reached

theorem inRange_of_scalar? (read : scalar? text = some value) : value.InRange := by
  unfold scalar? at read
  split at read
  case h_1 n isInteger =>
    cases read
    exact inRange_integer (integer?_bounds isInteger)
  case h_2 =>
    repeat' split at read
    all_goals
      cases read <;> exact inRange_of_leaf nofun nofun

end Value

/-! ## Adding to tables -/

namespace Entries

variable {entries after : Entries} {key : String} {path : List String}
  {pairs : List (List String × Value)} {more : Entries → Option Entries}

theorem inRange_nil : InRange [] := nofun

theorem InRange.cons (range : entries.InRange) (new : value.InRange) (key : String) :
    InRange ((key, value) :: entries) := by
  intro other found here
  unfold find? at here
  split at here
  · cases here
    exact new
  · exact range other found here

theorem InRange.inside (range : entries.InRange) (key : String) : (entries.inside key).InRange := by
  unfold Entries.inside
  split
  case h_1 found => exact Value.inRange_table.1 (range key _ found)
  case h_2 => exact inRange_nil

theorem Sets.inRange (sets : Sets key value entries after) (new : value.InRange)
    (range : entries.InRange) : after.InRange := by
  intro other found here
  by_cases same : other = key
  · cases same
    cases sets.found.symm.trans here
    exact new
  · exact range other found (sets.others other same ▸ here)

theorem Grows.inRange (grows : Grows more key entries after)
    (keeps : ∀ inner after, more inner = some after → inner.InRange → after.InRange)
    (range : entries.InRange) : after.InRange := by
  intro other found here
  by_cases same : other = key
  · cases same
    obtain ⟨_, there, stays⟩ := grows.found
    cases there.symm.trans here
    cases found with
    | table origin inner =>
      exact Value.inRange_table.2 (keeps _ _ (grows.table origin inner there) (range.inside key))
    | rows => exact Value.inRange_of_leaf nofun nofun
    | _ => cases stays
  · exact range other found (grows.others other same ▸ here)

theorem inRange_of_insert? (new : value.InRange) (path : List String) :
    ∀ entries after, insert? value path entries = some after → entries.InRange →
      after.InRange := by
  match path with
  | [] => exact fun _ _ inserts => nomatch inserts
  | [key] => exact fun _ _ inserts range => (sets_of_insert? inserts).inRange new range
  | key :: next :: path =>
    exact fun _ _ inserts range =>
      (grows_of_insert? inserts).inRange (inRange_of_insert? new (next :: path)) range

theorem inRange_of_insertAll? (new : ∀ pair ∈ pairs, pair.2.InRange)
    (inserts : insertAll? pairs entries = some after) (range : entries.InRange) :
    after.InRange := by
  induction pairs generalizing entries with
  | nil =>
    cases inserts
    exact range
  | cons pair pairs ih =>
    obtain ⟨middle, first, others⟩ := Option.bind_eq_some_iff.1 inserts
    rw [List.forall_mem_cons] at new
    exact ih new.2 others (inRange_of_insert? new.1 pair.1 _ _ first range)

end Entries

/-! ## Readers -/

/-- What the reader reads is in range. -/
def Keeps (item : List Char → Option (Value × List Char)) : Prop :=
  ∀ ⦃text value rest⦄, item text = some (value, rest) → value.InRange

variable {item : List Char → Option (Value × List Char)} {pair : List String × Value}
  {pairs : List (List String × Value)} {bound : Nat}

theorem inRange_of_pair? (keeps : Keeps item) (read : pair? item text = some (pair, rest)) :
    pair.2.InRange := by
  simp only [pair?, Option.bind_eq_bind, Option.bind_eq_some_iff] at read
  obtain ⟨⟨path, afterKey⟩, -, read⟩ := read
  split at read
  · obtain ⟨⟨value, rest⟩, isItem, ⟨⟩⟩ := Option.bind_eq_some_iff.1 read
    exact keeps isItem
  · cases read

theorem inRange_of_pairs? (keeps : Keeps item)
    (read : pairs? item bound text = some (pairs, rest)) : ∀ pair ∈ pairs, pair.2.InRange := by
  induction bound generalizing text pairs with
  | zero => cases read
  | succ bound ih =>
    simp only [pairs?, Option.bind_eq_bind, Option.bind_eq_some_iff] at read
    obtain ⟨⟨first, afterFirst⟩, isPair, read⟩ := read
    have new := inRange_of_pair? keeps isPair
    split at read
    · obtain ⟨⟨others, rest⟩, isPairs, ⟨⟩⟩ := Option.bind_eq_some_iff.1 read
      exact List.forall_mem_cons.2 ⟨new, ih isPairs⟩
    · cases read
      exact List.forall_mem_singleton.2 new
    · cases read

theorem keeps_inlineTable? (keeps : Keeps item) : Keeps (inlineTable? item) := by
  intro text value rest read
  unfold inlineTable? at read
  split at read
  · cases read
    exact Value.inRange_table.2 Entries.inRange_nil
  · obtain ⟨⟨pairs, rest⟩, isPairs, read⟩ := Option.bind_eq_some_iff.1 read
    obtain ⟨entries, inserts, ⟨⟩⟩ := Option.bind_eq_some_iff.1 read
    exact Value.inRange_table.2
      (Entries.inRange_of_insertAll? (inRange_of_pairs? keeps isPairs) inserts Entries.inRange_nil)

theorem keeps_array? : Keeps (array? item) := by
  intro text value rest read
  obtain ⟨⟨values, rest⟩, -, ⟨⟩⟩ := Option.map_eq_some_iff.1 read
  exact Value.inRange_of_leaf nofun nofun

/-- The readers inside see one level of nesting less. -/
theorem keeps_value? (depth : Nat) : Keeps (value? depth) := by
  induction depth using Nat.strongRecOn with
  | ind depth ih =>
    intro text value rest read
    rw [value?.eq_def] at read
    dsimp only at read
    split at read
    case h_1 =>
      split at read
      · cases read
      · exact keeps_array? read
    case h_2 =>
      split at read
      · cases read
      · exact keeps_inlineTable? (ih _ (Nat.lt_succ_self _)) read
    case h_5 =>
      obtain ⟨scalar, isScalar, ⟨⟩⟩ := Option.map_eq_some_iff.1 read
      exact Value.inRange_of_scalar? isScalar
    all_goals
      obtain ⟨⟨characters, rest⟩, -, ⟨⟩⟩ := Option.map_eq_some_iff.1 read
      exact Value.inRange_of_leaf nofun nofun

/-- All integers in the value that a pair gives have 64 bits with a sign. -/
def Statement.InRange : Statement → Prop
  | .header _ _ => True
  | .pair _ value => value.InRange

theorem inRange_of_header? {doubled : Bool} {statement : Statement}
    (read : header? doubled text = some (statement, rest)) : statement.InRange := by
  simp only [header?, Option.bind_eq_bind, Option.bind_eq_some_iff] at read
  obtain ⟨⟨path, afterPath⟩, -, read⟩ := read
  split at read <;> cases read <;> trivial

theorem inRange_of_statement? {statement : Statement}
    (read : statement? text = some (statement, rest)) : statement.InRange := by
  unfold statement? at read
  split at read
  case h_3 =>
    obtain ⟨⟨pair, rest⟩, isPair, ⟨⟩⟩ := Option.map_eq_some_iff.1 read
    exact inRange_of_pair? (keeps_value? maxDepth) isPair
  all_goals exact inRange_of_header? read

theorem inRange_of_statements? {statements : List Statement}
    (read : statements? bound text = some statements) :
    ∀ statement ∈ statements, statement.InRange := by
  induction bound generalizing text statements with
  | zero => cases read
  | succ bound ih =>
    rw [statements?] at read
    split at read
    · cases read
      exact List.forall_mem_nil _
    · split at read
      · obtain ⟨_, -, read⟩ := Option.bind_eq_some_iff.1 read
        exact ih read
      · obtain ⟨⟨statement, rest⟩, isStatement, read⟩ := Option.bind_eq_some_iff.1 read
        obtain ⟨_, -, read⟩ := Option.bind_eq_some_iff.1 read
        obtain ⟨statements, isRest, ⟨⟩⟩ := Option.bind_eq_some_iff.1 read
        exact List.forall_mem_cons.2 ⟨inRange_of_statement? isStatement, ih isRest⟩

/-! ## Documents -/

/-- What is mentioned as an integer stands in a value that is written. -/
theorem at?_of_answer {written : Option Value} {path asked : List String}
    (tells : Mention.answer written path asked = some (some (.integer n))) :
    ∃ value rest, written = some value ∧ value.at? rest = some (.integer n) := by
  fun_induction Mention.answer written path asked with
  | case1 value asked given =>
    obtain ⟨reached, found, complete⟩ := Option.map_eq_some_iff.1 tells
    exact ⟨value, asked, given, Value.eq_of_complete? complete ▸ found⟩
  | case5 key path asked ih => exact ih tells
  | _ => cases tells

theorem inRange_of_mem_mentions {scope : List String} {statements : List Statement}
    (range : ∀ statement ∈ statements, statement.InRange) {mention : Mention}
    (mentioned : mention ∈ mentions scope statements) (written : mention.written = some value) :
    value.InRange := by
  fun_induction mentions scope statements with
  | case1 => cases mentioned
  | case2 scope path value rest ih =>
    rw [List.forall_mem_cons] at range
    rcases List.mem_cons.1 mentioned with rfl | later
    · cases written
      exact range.1
    · exact ih range.2 later
  | case3 scope doubled path rest ih =>
    rw [List.forall_mem_cons] at range
    rcases List.mem_cons.1 mentioned with rfl | later
    · cases written
    · exact ih range.2 later

/-- Only tables lead to an integer. -/
theorem rowFree_of_at? {value : Value} {path : List String}
    (reached : value.at? path = some (.integer n)) : value.RowFree path := by
  induction path generalizing value with
  | nil => trivial
  | cons key path ih =>
    cases value with
    | table origin entries =>
      obtain ⟨inner, found, reached⟩ := Option.bind_eq_some_iff.1 reached
      intro other isOther
      cases found.symm.trans isOther
      exact ih reached
    | rows => cases reached
    | _ => trivial

/-- An integer that tables of a document lead to has 64 bits with a sign. -/
theorem inRange_of_read? {source : String} {document : Entries}
    (read : codec.read? source = some document) : document.whole.InRange := by
  obtain ⟨statements, read, built⟩ := Codec.read?_eq_some_iff.1 read
  intro path n found
  cases path with
  | nil => cases found
  | cons key path =>
    have shows := shown_of_ofStatements? built (rowFree_of_at? found)
    rw [Value.shown, found] at shows
    obtain ⟨mention, mentioned, tells⟩ := List.exists_of_findSome?_eq_some shows.symm
    obtain ⟨value, rest, written, reached⟩ := at?_of_answer tells
    exact inRange_of_mem_mentions (inRange_of_statements? read) mentioned written rest n reached

theorem codec_records : codec.Records := ⟨fun _ _ _ => rfl⟩

/-- The reader does what can be relied on. -/
theorem codec_reads : codec.Reads where
  toRecords := codec_records
  shown_eq built free := shown_of_ofStatements? built free
  inRange read := inRange_of_read? read

end TreeIR.Toml
