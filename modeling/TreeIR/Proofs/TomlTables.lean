/-
# TreeIR.Proofs.TomlTables -- a document says what its statements say

A document is built from its statements by functions that look at what is there and change one
table.  What they leave behind does not depend on the form: what is to be found at a path is what
the first mention that says something about the path says (`shown_of_ofStatements?`).  So a dotted
key, a header and an inline table that mention one path alike can stand for each other, and
mentions of other paths do not matter.

* Adding is either giving a value to a free key (`Sets`) or going on under a key that is free or
  open (`Grows`); every function of `TreeIR.Toml.Table` is one of the two at the key it starts with.
* `Adds f ms` is the invariant: `f` leaves what was shown and adds what `ms` say.  It holds of both
  kinds (`Adds.of_sets`, `Adds.of_grows`), goes along sequences (`Adds.next`), and hence holds of
  sections (`Section.adds`) and documents.

Rows repeat a path, so the equation is about paths that do not lead through rows (`RowFree`).
-/
import Mathlib
import TreeIR.Toml.Document
import TreeIR.Toml.Path

namespace TreeIR.Toml

set_option autoImplicit false

/-! ## What adding to a table does -/

namespace Entries

variable {entries after : Entries} {key next : String} {path : List String} {value : Value}
  {f more : Entries → Option Entries} {pairs : List (List String × Value)}

/-- The table under a key, empty if there is none. -/
def inside (entries : Entries) (key : String) : Entries :=
  match entries.find? key with
  | some (.table _ inner) => inner
  | _ => []

/-- A key that was free gets a value. -/
structure Sets (key : String) (value : Value) (entries after : Entries) : Prop where
  free : entries.find? key = none
  found : after.find? key = some value
  others : ∀ other ≠ key, after.find? other = entries.find? other

/-- Under a key that is free or open something is added; a table under it becomes what `more` makes
of it, and rows stay rows. -/
structure Grows (more : Entries → Option Entries) (key : String) (entries after : Entries) :
    Prop where
  opened : ∀ old, entries.find? key = some old → old.isOpen = true
  found : ∃ value, after.find? key = some value ∧ value.isOpen = true
  table : ∀ origin inner, after.find? key = some (.table origin inner) →
    more (entries.inside key) = some inner
  rows : ∀ tables, entries.find? key = some (.rows tables) →
    ∃ tables, after.find? key = some (.rows tables)
  others : ∀ other ≠ key, after.find? other = entries.find? other

theorem inside_of_none (free : entries.find? key = none) : entries.inside key = [] := by
  rw [inside, free]

theorem inside_of_table {origin : Origin} {inner : Entries}
    (found : entries.find? key = some (.table origin inner)) : entries.inside key = inner := by
  rw [inside, found]

/-- There was no table or the one that went on. -/
theorem Grows.before {origin : Origin} {inner : Entries} (grows : Grows more key entries after)
    (found : after.find? key = some (.table origin inner)) :
    entries.find? key = none ∨ ∃ origin kept, entries.find? key = some (.table origin kept) := by
  cases was : entries.find? key with
  | none => exact .inl rfl
  | some old =>
    have opened := grows.opened old was
    cases old with
    | table origin kept => exact .inr ⟨origin, kept, rfl⟩
    | rows tables =>
      obtain ⟨tables, rows⟩ := grows.rows tables was
      cases rows.symm.trans found
    | _ => cases opened

theorem sets_put (free : entries.find? key = none) :
    Sets key value entries (entries.put key value) where
  free := free
  found := find?_put_self entries key value
  others _ apart := find?_put_of_ne entries value apart

/-- A table that is made or goes on. -/
theorem grows_put_table {origin : Origin} {inner : Entries}
    (room : ∀ old, entries.find? key = some old →
      ∃ origin inner, old = .table origin inner ∧ origin ≠ .inline)
    (stays : origin ≠ .inline) (made : more (entries.inside key) = some inner) :
    Grows more key entries (entries.put key (.table origin inner)) where
  opened old found := by
    obtain ⟨origin, inner, rfl, outside⟩ := room old found
    simpa [Value.isOpen] using outside
  found := ⟨_, find?_put_self entries key _, by simpa [Value.isOpen] using stays⟩
  table origin inner found := by
    cases (find?_put_self entries key _).symm.trans found
    exact made
  rows tables found := by
    obtain ⟨origin, inner, kind, -⟩ := room _ found
    cases kind
  others _ apart := find?_put_of_ne entries _ apart

/-- A table that is made. -/
theorem grows_put_new {origin : Origin} {inner : Entries} (free : entries.find? key = none)
    (stays : origin ≠ .inline) (made : more [] = some inner) :
    Grows more key entries (entries.put key (.table origin inner)) :=
  grows_put_table (by simp [free]) stays (inside_of_none free ▸ made)

/-- A table that goes on. -/
theorem grows_put_old {origin old : Origin} {inner kept : Entries}
    (found : entries.find? key = some (.table old kept)) (grows : old ≠ .inline)
    (stays : origin ≠ .inline) (made : more kept = some inner) :
    Grows more key entries (entries.put key (.table origin inner)) :=
  grows_put_table (by simp [found, grows]) stays (inside_of_table found ▸ made)

/-- Rows that are made or go on. -/
theorem grows_put_rows {tables : List Entries}
    (room : ∀ old, entries.find? key = some old → ∃ tables, old = .rows tables) :
    Grows more key entries (entries.put key (.rows tables)) where
  opened old found := by
    obtain ⟨tables, rfl⟩ := room old found
    rfl
  found := ⟨_, find?_put_self entries key _, rfl⟩
  table origin inner found := by cases (find?_put_self entries key _).symm.trans found
  rows _ _ := ⟨_, find?_put_self entries key _⟩
  others _ apart := find?_put_of_ne entries _ apart

theorem sets_of_insert? (inserts : insert? value [key] entries = some after) :
    Sets key value entries after := by
  simp only [insert?, Option.isNone_iff_eq_none, Option.ite_none_right_eq_some] at inserts
  obtain ⟨free, ⟨⟩⟩ := inserts
  exact sets_put free

/-- A dotted key goes through the table of its first part. -/
theorem grows_of_insert? (inserts : insert? value (key :: next :: path) entries = some after) :
    Grows (insert? value (next :: path)) key entries after := by
  simp only [insert?, Option.bind_eq_bind, Option.pure_def] at inserts
  split at inserts
  case h_1 free =>
    obtain ⟨inner, made, ⟨⟩⟩ := Option.bind_eq_some_iff.1 inserts
    exact grows_put_new free nofun made
  case h_2 found =>
    obtain ⟨inner, made, ⟨⟩⟩ := Option.bind_eq_some_iff.1 inserts
    exact grows_put_old found nofun nofun made
  case h_3 found =>
    split at inserts
    · cases inserts
    obtain ⟨inner, made, ⟨⟩⟩ := Option.bind_eq_some_iff.1 inserts
    exact grows_put_old found nofun nofun made
  case h_4 found =>
    split at inserts
    · cases inserts
    obtain ⟨tables, -, ⟨⟩⟩ := Option.bind_eq_some_iff.1 inserts
    exact grows_put_rows (by simp [found])
  case h_5 => cases inserts

/-- A header goes through the first part of its path. -/
theorem grows_of_below? (changes : below? f (key :: path) entries = some after) :
    Grows (below? f path) key entries after := by
  simp only [below?, Option.bind_eq_bind, Option.pure_def] at changes
  split at changes
  case h_1 free =>
    obtain ⟨inner, made, ⟨⟩⟩ := Option.bind_eq_some_iff.1 changes
    exact grows_put_new free nofun made
  case h_2 => cases changes
  case h_3 origin _ outside found =>
    obtain ⟨inner, made, ⟨⟩⟩ := Option.bind_eq_some_iff.1 changes
    exact grows_put_old found outside outside made
  case h_4 found =>
    obtain ⟨tables, -, ⟨⟩⟩ := Option.bind_eq_some_iff.1 changes
    exact grows_put_rows (by simp [found])
  case h_5 => cases changes

theorem grows_of_openTable? (opens : openTable? key pairs entries = some after) :
    Grows (insertAll? pairs) key entries after := by
  simp only [openTable?, Option.bind_eq_bind, Option.pure_def] at opens
  split at opens
  case h_1 free =>
    obtain ⟨inner, made, ⟨⟩⟩ := Option.bind_eq_some_iff.1 opens
    exact grows_put_new free nofun made
  case h_2 found =>
    obtain ⟨inner, made, ⟨⟩⟩ := Option.bind_eq_some_iff.1 opens
    exact grows_put_old found nofun nofun made
  case h_3 => cases opens

theorem grows_of_addRow? (adds : addRow? key pairs entries = some after) :
    Grows more key entries after := by
  simp only [addRow?, Option.bind_eq_bind, Option.pure_def] at adds
  split at adds
  case h_1 free =>
    obtain ⟨row, -, ⟨⟩⟩ := Option.bind_eq_some_iff.1 adds
    exact grows_put_rows (by simp [free])
  case h_2 found =>
    obtain ⟨row, -, ⟨⟩⟩ := Option.bind_eq_some_iff.1 adds
    exact grows_put_rows (by simp [found])
  case h_3 => cases adds

end Entries

/-- What pairs of keys and values say. -/
def Mention.ofPairs (pairs : List (List String × Value)) : List Mention :=
  pairs.map fun pair => ⟨pair.1, some pair.2⟩

/-! ## Adding shows what is said -/

/-- What a change leaves is what was there and what the mentions say. -/
def Adds (f : Entries → Option Entries) (mentions : List Mention) : Prop :=
  ∀ ⦃entries after : Entries⦄, f entries = some after → ∀ asked, after.whole.RowFree asked →
    entries.whole.RowFree asked ∧
      after.whole.shown asked =
        (entries.whole.shown asked).or (mentions.findSome? (Mention.about asked))

namespace Adds

open Entries

variable {entries after : Entries} {f g more : Entries → Option Entries}
  {mentions others : List Mention} {key : String} {path : List String} {value : Value}
  {pairs : List (List String × Value)}

theorem refl : Adds some [] := by
  rintro entries _ ⟨⟩ asked free
  exact ⟨free, (Option.or_none).symm⟩

theorem next (first : Adds f mentions) (second : Adds g others) :
    Adds (fun entries => (f entries).bind g) (mentions ++ others) := by
  intro entries after changes asked free
  obtain ⟨middle, changed, changes⟩ := Option.bind_eq_some_iff.1 changes
  obtain ⟨free, shows₂⟩ := second changes asked free
  obtain ⟨free, shows₁⟩ := first changed asked free
  exact ⟨free, by rw [shows₂, shows₁, Option.or_assoc, List.findSome?_append]⟩

/-- Opening a table says nothing about what is in it. -/
theorem opened (adds : Adds f mentions) : Adds f (⟨[], none⟩ :: mentions) := by
  intro entries after changes asked free
  obtain ⟨free, shows⟩ := adds changes asked free
  refine ⟨free, ?_⟩
  cases asked with
  | nil => rfl
  | cons key asked => rw [shows, List.findSome?_cons, Mention.about_opened]

theorem of_sets (sets : ∀ entries after, f entries = some after → Sets key value entries after) :
    Adds f [⟨[key], some value⟩] := by
  intro entries after changes asked free
  have sets := sets entries after changes
  have mentioned : (⟨[key], some value⟩ : Mention) = .under [key] ⟨[], some value⟩ := rfl
  cases asked with
  | nil => exact ⟨trivial, rfl⟩
  | cons other asked =>
    simp only [whole, Value.rowFree_cons, Value.shown_cons, mentioned, List.findSome?_singleton]
      at free ⊢
    by_cases same : other = key
    · subst same
      simp [sets.free, sets.found]
    · rw [sets.others other same] at free ⊢
      rw [Mention.about_under_of_ne same, Option.or_none]
      exact ⟨free, rfl⟩

/-- What a table under a key shows, the table shows under the key. -/
theorem of_grows (grows : ∀ entries after, f entries = some after → Grows more key entries after)
    (adds : Adds more mentions) (opens : mentions.findSome? (Mention.about []) = some none) :
    Adds f (mentions.map (·.under [key])) := by
  intro entries after changes asked free
  have grows := grows entries after changes
  obtain ⟨grown, found, stays⟩ := grows.found
  rw [List.findSome?_map]
  cases asked with
  | nil => exact ⟨trivial, rfl⟩
  | cons other asked =>
    simp only [whole, Value.rowFree_cons, Value.shown_cons] at free ⊢
    by_cases same : other = key
    · subst same
      have here : Mention.about (other :: asked) ∘ (·.under [other]) = Mention.about asked :=
        funext fun mention => Mention.about_under
      rw [here, found, Option.bind_some]
      cases asked with
      | nil =>
        -- The key itself: something open is there now, and nothing else was before.
        refine ⟨fun _ _ => trivial, ?_⟩
        rw [opens, Value.shown_nil, Value.complete?_of_isOpen stays]
        cases was : entries.find? other with
        | none => rfl
        | some old => simp [Value.complete?_of_isOpen (grows.opened old was)]
      | cons next asked =>
        have through := free grown found
        cases grown with
        | table origin inner =>
          obtain ⟨free, shows⟩ := adds (grows.table origin inner found) (next :: asked) through
          rcases grows.before found with was | ⟨origin, kept, was⟩
          · rw [inside_of_none was] at shows
            simpa [was, whole, find?] using shows
          · rw [inside_of_table was] at free shows
            simpa [was, whole] using And.intro free shows
        | rows => exact absurd through id
        | _ => cases stays
    · have elsewhere (mention : Mention) :
          (Mention.about (other :: asked) ∘ (·.under [key])) mention = none :=
        Mention.about_under_of_ne same
      rw [grows.others other same] at free ⊢
      rw [List.findSome?_eq_none_iff.2 fun mention _ => elsewhere mention, Option.or_none]
      exact ⟨free, rfl⟩

theorem insert? (path : List String) (value : Value) :
    Adds (Entries.insert? value path) [⟨path, some value⟩] := by
  match path with
  | [] => exact fun _ _ inserts => nomatch inserts
  | [key] => exact of_sets fun _ _ => sets_of_insert?
  | key :: next :: path =>
    exact of_grows (fun _ _ => grows_of_insert?) (insert? (next :: path) value) rfl

theorem insertAll? (pairs : List (List String × Value)) :
    Adds (Entries.insertAll? pairs) (Mention.ofPairs pairs) := by
  induction pairs with
  | nil => exact refl
  | cons pair pairs ih => exact (insert? pair.1 pair.2).next ih

/-- Opening a table, or a row, under a key and filling it with pairs. -/
theorem enter (doubled : Bool) (key : String) (pairs : List (List String × Value)) :
    Adds ((if doubled then Entries.addRow? key else Entries.openTable? key) pairs)
      ((⟨[], none⟩ :: Mention.ofPairs pairs).map (Mention.under [key])) := by
  cases doubled with
  | false => exact of_grows (fun _ _ => grows_of_openTable?) (insertAll? pairs).opened rfl
  | true => exact of_grows (fun _ _ => grows_of_addRow?) (insertAll? pairs).opened rfl

/-- A change below a path says under the path what it says. -/
theorem below? (adds : Adds f mentions)
    (opens : mentions.findSome? (Mention.about []) = some none) (path : List String) :
    Adds (Entries.below? f path) (mentions.map (Mention.under path)) ∧
      (mentions.map (Mention.under path)).findSome? (Mention.about []) = some none := by
  induction path with
  | nil =>
    rw [Mention.map_under_nil]
    exact ⟨adds, opens⟩
  | cons key path ih =>
    have grows : Adds (Entries.below? f (key :: path))
        ((mentions.map (Mention.under path)).map (Mention.under [key])) :=
      of_grows (fun _ _ => grows_of_below?) ih.1 ih.2
    rw [List.map_map] at grows
    refine ⟨by simpa [Function.comp_def, Mention.under_under] using grows, ?_⟩
    cases mentions with
    | nil => cases opens
    | cons first mentions => rfl

end Adds

/-! ## Sections and documents -/

namespace Section

/-- What a section says: that it is opened, and its pairs. -/
def mentions (opened : Section) : List Mention :=
  (⟨[], none⟩ :: Mention.ofPairs opened.pairs).map (Mention.under opened.path)

theorem adds (opened : Section) : Adds opened.addTo? opened.mentions := by
  obtain ⟨doubled, path, pairs⟩ := opened
  intro entries after changes
  rcases List.eq_nil_or_concat' path with rfl | ⟨outer, key, rfl⟩
  · cases changes
  · simp only [addTo?, List.getLast?_concat, List.dropLast_concat] at changes
    have added := (((Adds.enter doubled key pairs).below? rfl outer).1) changes
    simpa [mentions, Function.comp_def, Mention.under_under] using added

end Section

/-- Grouping the statements does not change what they say. -/
theorem mentions_eq (scope : List String) (statements : List Statement) :
    mentions scope statements =
      (Mention.ofPairs (sections statements).1).map (Mention.under scope) ++
        (sections statements).2.flatMap Section.mentions := by
  fun_induction mentions scope statements with
  | case1 => rfl
  | case2 scope path value rest ih => simp [sections, Mention.ofPairs, Mention.under, ih]
  | case3 scope doubled path rest ih =>
    simp [sections, Mention.ofPairs, Mention.under, Section.mentions, ih]

theorem adds_foldlM (later : List Section) :
    Adds (fun root => later.foldlM (fun root opened => opened.addTo? root) root)
      (later.flatMap Section.mentions) := by
  induction later with
  | nil => exact Adds.refl
  | cons opened later ih => exact opened.adds.next ih

/-- At a path that does not lead through rows, a document shows what the first statement that says
something about the path says. -/
theorem shown_of_ofStatements? {statements : List Statement} {document : Entries}
    (built : ofStatements? statements = some document) {key : String} {path : List String}
    (free : document.whole.RowFree (key :: path)) :
    document.whole.shown (key :: path) = told (key :: path) statements := by
  have adds := (Adds.insertAll? (sections statements).1).next (adds_foldlM (sections statements).2)
  obtain ⟨-, shows⟩ := adds built (key :: path) free
  rw [shows, told, mentions_eq, Mention.map_under_nil]
  rfl

end TreeIR.Toml
