/-
# TreeIR.Proofs.Clashes -- a registration is refused for its first clash

Two registrations go through a list before they store anything.  Registering a node goes through
its labels and refuses one that is bound, or that the node has given another role before.
Registering a function looks at its own name first and then goes through its slots, params and
locals alike, and refuses a name that a slot before has; whether that name is bound does not
matter there.

Both remember what they have passed.  A position repeats an entry if an earlier one holds the
same (`RepeatsAt`); up to the first such position the entries are distinct (`nodup_take_iff`), so
they are passed (`firstRepeated?_append`, `checkLabels_append`), and what comes next is refused.
Where no position clashes all are passed, and the registration goes on to store and to bind.

A node that keeps the contract of its kind does not repeat a label (`nodup_labels_of_wellFormed`).
Of a loop that was built, only labels that are bound are therefore ever refused.
-/
import TreeIR.Proofs.Labels
import TreeIR.Proofs.Locals
import TreeIR.Proofs.WellFormed

namespace TreeIR

set_option autoImplicit false

/-! ## Repetitions in a list -/

section Repetition

variable {α : Type} {entries : List α} {entry : α} {position : Nat}

/-- The entry at the position stands at an earlier position, too. -/
def RepeatsAt (entries : List α) (position : Nat) : Prop :=
  ∃ earlier < position, ∃ entry, entries[earlier]? = some entry ∧ entries[position]? = some entry

theorem repeatsAt_iff_mem_take (found : entries[position]? = some entry) :
    RepeatsAt entries position ↔ entry ∈ entries.take position := by
  simp only [RepeatsAt, found, Option.some.injEq, List.mem_iff_getElem?, List.getElem?_take]
  constructor
  · rintro ⟨earlier, lower, _, stands, rfl⟩
    exact ⟨earlier, by rw [if_pos lower, stands]⟩
  · rintro ⟨earlier, stands⟩
    split at stands
    · exact ⟨earlier, ‹_›, entry, stands, rfl⟩
    · cases stands

/-- Entries are distinct exactly if no position repeats one. -/
theorem nodup_iff_not_repeatsAt : entries.Nodup ↔ ∀ position, ¬RepeatsAt entries position := by
  rw [List.nodup_iff_getElem?_ne_getElem?]
  constructor
  · rintro distinct position ⟨earlier, lower, entry, stands, found⟩
    have inside : position < entries.length := (List.getElem?_eq_some_iff.1 found).1
    exact distinct earlier position lower inside (stands.trans found.symm)
  · intro unrepeated earlier position lower inside same
    have found := List.getElem?_eq_getElem inside
    exact unrepeated position ⟨earlier, lower, _, same.trans found, found⟩

/-- Up to a position they are distinct exactly if no position before it repeats one. -/
theorem nodup_take_iff :
    (entries.take position).Nodup ↔ ∀ index < position, ¬RepeatsAt entries index := by
  rw [nodup_iff_not_repeatsAt]
  simp only [RepeatsAt, List.getElem?_take]
  constructor
  · rintro unrepeated index inside ⟨earlier, lower, entry, stands, found⟩
    refine unrepeated index ⟨earlier, lower, entry, ?_, ?_⟩
    · rw [if_pos (lower.trans inside), stands]
    · rw [if_pos inside, found]
  · rintro unrepeated index ⟨earlier, lower, entry, stands, found⟩
    split at found
    · rename_i inside
      rw [if_pos (lower.trans inside)] at stands
      exact unrepeated index inside ⟨earlier, lower, entry, stands, found⟩
    · cases found

theorem take_append_cons_drop (found : entries[position]? = some entry) :
    entries.take position ++ entry :: entries.drop (position + 1) = entries := by
  obtain ⟨inside, rfl⟩ := List.getElem?_eq_some_iff.1 found
  rw [List.getElem_cons_drop, List.take_append_drop]

/-- Different keys that are new stay new when the first of them is remembered. -/
theorem notMem_remembered {κ : Type} {key : α → κ} {seen : List κ}
    (distinct : ((entry :: entries).map key).Nodup)
    (fresh : ∀ other ∈ entry :: entries, key other ∉ seen) :
    ∀ other ∈ entries, key other ∉ key entry :: seen := by
  intro other member known
  rw [List.map_cons, List.nodup_cons] at distinct
  rcases List.mem_cons.1 known with same | known
  · exact distinct.1 (List.mem_map.2 ⟨other, member, same⟩)
  · exact fresh other (.tail _ member) known

end Repetition

/-! ## Slots of a function -/

namespace Func

/-- Slots with new and different names are passed and remembered. -/
theorem firstRepeated?_append {passed rest : List Slot} {seen : List Name}
    (fresh : ∀ slot ∈ passed, slot.name ∉ seen) (distinct : (passed.map Slot.name).Nodup) :
    firstRepeated? seen (passed ++ rest) =
      firstRepeated? ((passed.map Slot.name).reverse ++ seen) rest := by
  induction passed generalizing seen with
  | nil => rfl
  | cons slot passed ih =>
    have later := ih (notMem_remembered distinct fresh) (List.nodup_cons.1 distinct).2
    rw [List.cons_append, firstRepeated?, if_neg (fresh slot (.head _)), later]
    simp

/-- The name that is refused is the one at the first repetition. -/
theorem repeatedSlot?_of_first {func : Func} {position : Nat} {name : Name}
    (first : IsLeast {position | RepeatsAt (func.slots.map Slot.name) position} position)
    (found : (func.slots.map Slot.name)[position]? = some name) :
    func.repeatedSlot? = some name := by
  have again := (repeatsAt_iff_mem_take found).1 first.1
  have distinct : ((func.slots.map Slot.name).take position).Nodup :=
    nodup_take_iff.2 fun index lower repeats => Nat.not_le.2 lower (first.2 repeats)
  rw [List.getElem?_map] at found
  obtain ⟨slot, here, rfl⟩ := Option.map_eq_some_iff.1 found
  rw [← List.map_take] at again distinct
  rw [repeatedSlot?, ← take_append_cons_drop here, firstRepeated?_append (by simp) distinct,
    firstRepeated?, if_pos (by simpa using again)]

end Func

/-! ## Labels of a node -/

/-- A node that keeps the contract of its kind does not give one label two roles. -/
theorem Node.nodup_labels_of_wellFormed {node : Node} (wellFormed : node.WellFormed) :
    (node.labels.map Prod.fst).Nodup := by
  cases node with
  | loop exitLabel continueLabel body =>
    rw [WellFormed] at wellFormed
    cases exitLabel <;> cases continueLabel <;> simp_all [labels, labelFields, Var.isUnset]
  | block label list => cases label <;> simp [labels, labelFields, Var.isUnset]
  | marker label => cases label <;> simp [labels, labelFields, Var.isUnset]
  | switch label value cases fallback => cases label <;> simp [labels, labelFields, Var.isUnset]
  | _ => exact List.nodup_nil

namespace Program

variable {program : Program} {id : NodeId} {node : Node} {label : Var} {role : LabelRole}
  {labels : List (Var × LabelRole)} {position : Nat}

/-- The label at the position is bound, or it repeats an earlier one. -/
def ClashesAt (program : Program) (labels : List (Var × LabelRole)) (position : Nat) : Prop :=
  (∃ label role entity, labels[position]? = some (label, role) ∧
    program.resolve label = .ok entity) ∨ RepeatsAt (labels.map Prod.fst) position

theorem ClashesAt.lt_length (clashes : program.ClashesAt labels position) :
    position < labels.length := by
  rcases clashes with ⟨label, role, entity, here, -⟩ | ⟨earlier, lower, label, -, here⟩
  · exact (List.getElem?_eq_some_iff.1 here).1
  · simpa using (List.getElem?_eq_some_iff.1 here).1

/-- Up to where they do not clash, labels are free and different. -/
theorem passed_of_not_clashesAt (clear : ∀ index < position, ¬program.ClashesAt labels index) :
    (∀ declared ∈ labels.take position, program.bindings[declared.1]? = none) ∧
    ((labels.take position).map Prod.fst).Nodup := by
  constructor
  · rintro ⟨label, role⟩ member
    obtain ⟨index, stands⟩ := List.mem_iff_getElem?.1 member
    rw [List.getElem?_take] at stands
    split at stands
    · cases bound : program.bindings[label]? with
      | none => rfl
      | some entity =>
        have clash : program.ClashesAt labels index :=
          .inl ⟨label, role, entity, stands, resolve_eq_ok_iff.2 bound⟩
        exact absurd clash (clear index ‹_›)
    · cases stands
  · rw [List.map_take, nodup_take_iff]
    exact fun index lower repeats => clear index lower (.inr repeats)

/-- The first label has no earlier one to repeat. -/
theorem not_clashesAt_zero (here : labels[0]? = some (label, role))
    (unresolved : program.resolve label = .error (.unresolved label)) :
    ¬program.ClashesAt labels 0 := by
  rintro (⟨_, _, entity, there, resolved⟩ | ⟨earlier, lower, -⟩)
  · cases here.symm.trans there
    cases unresolved.symm.trans resolved
  · exact absurd lower (Nat.not_lt_zero earlier)

/-- If labels clash at all they clash somewhere first. -/
theorem exists_first_clash (clashes : ∃ position, program.ClashesAt labels position) :
    ∃ position, IsLeast {index | program.ClashesAt labels index} position := by
  classical exact ⟨_, Nat.isLeast_find clashes⟩

/-- Labels that are free, new and different are passed and remembered. -/
theorem checkLabels_append {passed rest : List (Var × LabelRole)} {earlier : List Var}
    (free : ∀ declared ∈ passed, program.bindings[declared.1]? = none)
    (fresh : ∀ declared ∈ passed, declared.1 ∉ earlier)
    (distinct : (passed.map Prod.fst).Nodup) :
    (checkLabels earlier (passed ++ rest)).run program =
      (checkLabels ((passed.map Prod.fst).reverse ++ earlier) rest).run program := by
  induction passed generalizing earlier with
  | nil => rfl
  | cons declared passed ih =>
    have later := ih (fun other member => free other (.tail _ member))
      (notMem_remembered distinct fresh) (List.nodup_cons.1 distinct).2
    obtain ⟨label, role⟩ := declared
    have new : label ∉ earlier := fresh _ (.head _)
    obtain ⟨existing, bound, -⟩ | ⟨-, passes⟩ := program.requireUnbound_cases label
    · cases (free _ (.head _)).symm.trans bound
    · simp [checkLabels, passes, new, later]

/-- The labels before the first clash are passed. -/
theorem checkLabels_at_first (first : IsLeast {index | program.ClashesAt labels index} position)
    (here : labels[position]? = some (label, role)) :
    (checkLabels [] labels).run program =
      (checkLabels ((labels.take position).map Prod.fst).reverse
        ((label, role) :: labels.drop (position + 1))).run program := by
  obtain ⟨free, distinct⟩ := passed_of_not_clashesAt fun index lower clash =>
    Nat.not_le.2 lower (first.2 clash)
  conv_lhs => rw [← take_append_cons_drop here]
  rw [checkLabels_append free (by simp) distinct, List.append_nil]

/-- A label that is bound is refused for what it is bound to, repeated or not. -/
theorem checkLabels_of_bound {earlier : List Var} {rest : List (Var × LabelRole)} {entity : Entity}
    (bound : program.bindings[label]? = some entity) :
    (checkLabels earlier ((label, role) :: rest)).run program =
      .error (.register (.alreadyBound label entity.kind)) program := by
  obtain ⟨existing, found, stops⟩ | ⟨free, -⟩ := program.requireUnbound_cases label
  · cases bound.symm.trans found
    simp [checkLabels, stops]
  · cases bound.symm.trans free

theorem checkLabels_of_repeated {earlier : List Var} {rest : List (Var × LabelRole)}
    (free : program.bindings[label]? = none) (known : label ∈ earlier) :
    (checkLabels earlier ((label, role) :: rest)).run program =
      .error (.register (.alreadyBound label .label)) program := by
  obtain ⟨existing, found, -⟩ | ⟨-, passes⟩ := program.requireUnbound_cases label
  · cases free.symm.trans found
  · simp [checkLabels, passes, known]

/-! ## Registering a node -/

theorem registerLabels_of_bare (found : program.node id = .ok node) (bare : node.labels = []) :
    (Request.registerLabels id).step program =
      (.error (.register (.notLabelBearing id)), program) := by
  apply Request.step_of_error rfl
  simp [registerLabels, Action.ask, found, Except.mapError, bare]

/-- What the check of the labels fails with the registration fails with. -/
theorem registerLabels_of_refused {failure : Failure} (found : program.node id = .ok node)
    (declares : node.labels ≠ [])
    (stops : (checkLabels [] node.labels).run program = .error failure program) :
    (Request.registerLabels id).step program = (.error failure, program) := by
  apply Request.step_of_error rfl
  simp [registerLabels, Action.ask, found, Except.mapError, declares, stops]

/-- The label at the first clash is the one that is refused. -/
theorem registerLabels_of_first (found : program.node id = .ok node)
    (first : IsLeast {index | program.ClashesAt node.labels index} position)
    (here : node.labels[position]? = some (label, role)) :
    (∀ entity, program.resolve label = .ok entity →
      (Request.registerLabels id).step program =
        (.error (.register (.alreadyBound label entity.kind)), program)) ∧
    (program.resolve label = .error (.unresolved label) →
      (Request.registerLabels id).step program =
        (.error (.register (.alreadyBound label .label)), program)) := by
  have declares : node.labels ≠ [] := List.ne_nil_of_mem (List.mem_of_getElem? here)
  have reached := checkLabels_at_first first here
  constructor
  · intro entity resolved
    apply registerLabels_of_refused found declares
    rw [reached, checkLabels_of_bound (resolve_eq_ok_iff.1 resolved)]
  · intro unresolved
    have repeats : RepeatsAt (node.labels.map Prod.fst) position := by
      rcases first.1 with ⟨other, _, entity, there, resolved⟩ | repeats
      · cases here.symm.trans there
        cases unresolved.symm.trans resolved
      · exact repeats
    have named : (node.labels.map Prod.fst)[position]? = some label := by
      rw [List.getElem?_map, here]
      rfl
    have known := (repeatsAt_iff_mem_take named).1 repeats
    rw [← List.map_take] at known
    apply registerLabels_of_refused found declares
    rw [reached, checkLabels_of_repeated (free_of_unresolved unresolved) (List.mem_reverse.2 known)]

/-- Where nothing clashes all labels are bound, and nothing else happens. -/
theorem registerLabels_of_clear (found : program.node id = .ok node) (declares : node.labels ≠ [])
    (clear : ∀ position, ¬program.ClashesAt node.labels position) :
    ∃ after, (Request.registerLabels id).step program = (.ok .done, after) ∧
      after = { program with bindings := after.bindings } ∧
      Grown program.bindings (labelTargets id node.labels) after.bindings := by
  have passed := passed_of_not_clashesAt fun index (_ : index < node.labels.length) => clear index
  rw [List.take_length] at passed
  obtain ⟨free, distinct⟩ := passed
  have passes : (checkLabels [] (node.labels ++ [])).run program =
      (checkLabels ((node.labels.map Prod.fst).reverse ++ []) []).run program :=
    checkLabels_append free (by simp) distinct
  have binds := bindLabels_of_unbound id (fun _ => set_of_mem_labels) free distinct
  rw [List.append_nil] at passes
  refine ⟨{ program with bindings := program.bindings.insertMany (labelTargets id node.labels) },
    Request.step_of_done rfl ?_, rfl, .labels (fun _ => set_of_mem_labels) free distinct id⟩
  simp [registerLabels, Action.ask, found, Except.mapError, declares, passes, checkLabels, binds]

/-- Where no label repeats, one that is refused was bound. -/
theorem bound_of_alreadyBound {kind : EntityKind} (found : program.node id = .ok node)
    (unrepeated : ∀ position, ¬RepeatsAt (node.labels.map Prod.fst) position)
    (failed : ((Request.registerLabels id).step program).1 =
      .error (.register (.alreadyBound label kind))) :
    ∃ entity, program.resolve label = .ok entity ∧ entity.kind = kind := by
  by_cases bare : node.labels = []
  · rw [registerLabels_of_bare found bare] at failed
    cases failed
  by_cases clashes : ∃ position, program.ClashesAt node.labels position
  · obtain ⟨position, first⟩ := exists_first_clash clashes
    obtain ⟨refused, role, entity, here, resolved⟩ := first.1.resolve_right (unrepeated position)
    rw [(registerLabels_of_first found first here).1 entity resolved] at failed
    cases failed
    exact ⟨entity, resolved, rfl⟩
  · obtain ⟨after, step, -⟩ := registerLabels_of_clear found bare (not_exists.1 clashes)
    rw [step] at failed
    cases failed

/-- **What registering a node comes to**, in any program, for any node that is there.  A node
without labels is refused as such.  If labels clash, the first that does is reported, with the
kind of what it is bound to or, if it is only repeated, as a label, and the program stays as it
was.  If none does, the registration succeeds: each label then stands for the node in its role,
all other vars stand for what they stood for, and nothing but the bindings has changed.  The
labels of a loop that was built and still has the labels it was built with repeat none, so one
that is refused was bound before. -/
theorem registerLabels_first_clash (start : Program) (requests : List Request) (id : NodeId)
    (node : Node) (found : (start.after requests).node id = .ok node) :
    let program := start.after requests
    let step := (Request.registerLabels id).step program
    (node.labels = [] → step = (.error (.register (.notLabelBearing id)), program)) ∧
    (∀ position label role, IsLeast {index | program.ClashesAt node.labels index} position →
      node.labels[position]? = some (label, role) →
      (∀ entity, program.resolve label = .ok entity →
        step = (.error (.register (.alreadyBound label entity.kind)), program)) ∧
      (program.resolve label = .error (.unresolved label) →
        step = (.error (.register (.alreadyBound label .label)), program))) ∧
    (node.labels ≠ [] → (∀ position, ¬program.ClashesAt node.labels position) →
      ∃ after, step = (.ok .done, after) ∧ after = { program with bindings := after.bindings } ∧
        (∀ label role, (label, role) ∈ node.labels →
          after.resolve label = .ok (.label ⟨id, role⟩)) ∧
        ∀ var, var ∉ node.labels.map Prod.fst → after.resolve var = program.resolve var) ∧
    (∀ earlier exitLabel continueLabel body later,
      let loop := Node.loop exitLabel continueLabel body
      requests = earlier ++ .build loop :: later →
      ((Request.build loop).step (start.after earlier)).1 = .ok (.id id) →
      node.labels = loop.labels →
      (∀ position, ¬RepeatsAt (node.labels.map Prod.fst) position) ∧
      ∀ label kind, step.1 = .error (.register (.alreadyBound label kind)) →
        ∃ entity, program.resolve label = .ok entity ∧ entity.kind = kind) := by
  intro program step
  refine ⟨registerLabels_of_bare found, fun position label role => registerLabels_of_first found,
    ?_, ?_⟩
  · intro declares clear
    obtain ⟨after, goes, same, grown⟩ := registerLabels_of_clear found declares clear
    refine ⟨after, goes, same, ?_, ?_⟩
    · intro label role member
      rw [resolve_eq_ok_iff, grown.getElem?_eq_some_iff]
      exact .inr (List.mem_map_of_mem member)
    · intro var other
      apply resolve_of_getElem?
      apply grown.getElem?_of_notMem
      rwa [labelTargets, List.map_map]
  · intro earlier exitLabel continueLabel body later loop split built same
    have wellFormed : loop.WellFormed := Node.check_eq_ok_iff.1 (check_of_build built)
    have distinct := Node.nodup_labels_of_wellFormed wellFormed
    rw [← same] at distinct
    have unrepeated := nodup_iff_not_repeatsAt.1 distinct
    exact ⟨unrepeated, fun label kind => bound_of_alreadyBound found unrepeated⟩

/-- A node without labels, a loop that was allocated with one label twice, a loop that was built
and whose second label a function has taken since, and a marker whose label is free. -/
theorem registerLabels_first_clash_of_loops :
    let unchecked : Node := .loop (.index 5) (.index 5) ⟨0⟩
    let loop : Node := .loop (.index 7) (.index 8) ⟨0⟩
    let func : Func := ⟨⟨0⟩, .void, [], [], none⟩
    let requests : List Request :=
      [.build .nop, .alloc unchecked, .build loop, .build (.marker (.index 7)), .addFunction func,
        .bind (.index 8) (.function 0), .putChildren ⟨2⟩ [⟨3⟩]]
    let program := empty.after requests
    let registers (id : UInt32) := (Request.registerLabels ⟨id⟩).step program
    registers 0 = (.error (.register (.notLabelBearing ⟨0⟩)), program) ∧
    registers 1 = (.error (.register (.alreadyBound (.index 5) .label)), program) ∧
    registers 2 = (.error (.register (.alreadyBound (.index 8) .function)), program) ∧
    (∃ entity, program.resolve (.index 8) = .ok entity ∧ entity.kind = .function) ∧
    ∃ after, registers 3 = (.ok .done, after) ∧
      after.resolve (.index 7) = .ok (.label ⟨⟨3⟩, .marker⟩) := by
  intro unchecked loop func requests program registers
  have five : program.resolve (.index 5) = .error (.unresolved (.index 5)) := by decide +kernel
  have seven : program.resolve (.index 7) = .error (.unresolved (.index 7)) := by decide +kernel
  have eight : program.resolve (.index 8) = .ok (.function 0) := by decide +kernel
  have second {labels : List (Var × LabelRole)} (clash : program.ClashesAt labels 1)
      (clear : ¬program.ClashesAt labels 0) :
      IsLeast {index | program.ClashesAt labels index} 1 := by
    refine ⟨clash, fun index clashes => Nat.one_le_iff_ne_zero.2 ?_⟩
    rintro rfl
    exact clear clashes
  obtain ⟨bare, -⟩ := registerLabels_first_clash empty requests ⟨0⟩ .nop (by decide +kernel)
  obtain ⟨-, twice, -⟩ :=
    registerLabels_first_clash empty requests ⟨1⟩ unchecked (by decide +kernel)
  obtain ⟨-, taken, -, built⟩ := registerLabels_first_clash empty requests ⟨2⟩
    (.loop (.index 7) (.index 8) ⟨3⟩) (by decide +kernel)
  obtain ⟨-, -, clear, -⟩ :=
    registerLabels_first_clash empty requests ⟨3⟩ (.marker (.index 7)) (by decide +kernel)
  have refused : registers 2 = (.error (.register (.alreadyBound (.index 8) .function)), program) :=
    (taken 1 (.index 8) .loopContinue
      (second (.inl ⟨_, _, _, rfl, eight⟩) (not_clashesAt_zero rfl seven)) rfl).1 _ eight
  refine ⟨bare rfl, ?_, refused, ?_, ?_⟩
  · have again : RepeatsAt (unchecked.labels.map Prod.fst) 1 := ⟨0, by decide, .index 5, rfl, rfl⟩
    exact (twice 1 (.index 5) .loopContinue
      (second (.inr again) (not_clashesAt_zero rfl five)) rfl).2 five
  · obtain ⟨-, bound⟩ := built (requests.take 2) (.index 7) (.index 8) ⟨0⟩ (requests.drop 3) rfl
      (by decide +kernel) rfl
    exact bound _ _ (congrArg Prod.fst refused)
  · obtain ⟨after, step, -, resolves, -⟩ := clear (by decide) fun position clashes => by
      obtain rfl : position = 0 := Nat.lt_one_iff.1 clashes.lt_length
      exact not_clashesAt_zero rfl seven clashes
    exact ⟨after, step, resolves _ _ (.head _)⟩

/-! ## Registering a function -/

theorem addFunction_of_bound {func : Func} {entity : Entity}
    (bound : program.bindings[Var.named func.name]? = some entity) :
    (Request.addFunction func).step program =
      (.error (.register (.alreadyBound (.named func.name) entity.kind)), program) := by
  obtain ⟨existing, found, stops⟩ | ⟨_, free, -⟩ | ⟨free, -⟩ := program.addFunction_cases func
  · cases bound.symm.trans found
    exact Request.step_of_error rfl stops
  · cases bound.symm.trans free
  · cases bound.symm.trans free

theorem addFunction_of_repeated {func : Func} {name : Name}
    (free : program.bindings[Var.named func.name]? = none)
    (repeated : func.repeatedSlot? = some name) :
    (Request.addFunction func).step program =
      (.error (.register (.duplicateLocal name)), program) := by
  obtain ⟨_, found, -⟩ | ⟨other, -, refused, stops⟩ | ⟨-, distinct, -⟩ :=
    program.addFunction_cases func
  · cases free.symm.trans found
  · cases repeated.symm.trans refused
    exact Request.step_of_error rfl stops
  · cases repeated.symm.trans distinct

theorem addFunction_of_distinct {func : Func}
    (free : program.bindings[Var.named func.name]? = none) (distinct : func.repeatedSlot? = none) :
    (Request.addFunction func).step program =
      (.ok (.index program.functions.size), { program with
        functions := program.functions.push func
        bindings := program.bindings.insert (.named func.name)
          (.function program.functions.size) }) := by
  obtain ⟨_, found, -⟩ | ⟨_, -, refused, -⟩ | ⟨-, -, goes⟩ := program.addFunction_cases func
  · cases free.symm.trans found
  · cases distinct.symm.trans refused
  · exact Request.step_of_ok rfl goes

/-- **What registering a function comes to**, in any program.  A name that is bound is refused,
whatever the slots are.  If it is free, the first slot whose name a slot before has is refused,
no matter which of the two is a param and which a local.  If the slots have different names, the
function gets the next position and is there as it was given, its name stands for it, and all
other functions, vars and parts of the program are as they were.  A slot may have the name of the
function or any other name that is bound. -/
theorem addFunction_first_repetition (program : Program) (func : Func) :
    let step := (Request.addFunction func).step program
    let names := func.slots.map Slot.name
    (∀ entity, program.resolve (.named func.name) = .ok entity →
      step = (.error (.register (.alreadyBound (.named func.name) entity.kind)), program)) ∧
    (program.resolve (.named func.name) = .error (.unresolved (.named func.name)) →
      (∀ position name, IsLeast {index | RepeatsAt names index} position →
        names[position]? = some name →
        step = (.error (.register (.duplicateLocal name)), program)) ∧
      ((∀ position, ¬RepeatsAt names position) →
        let index := program.functions.size
        ∃ after, step = (.ok (.index index), after) ∧
          after = { program with
            functions := program.functions.push func
            bindings := after.bindings } ∧
          after.function index = .ok func ∧
          after.resolve (.named func.name) = .ok (.function index) ∧
          (∀ other, other ≠ index → after.function other = program.function other) ∧
          ∀ var, var ≠ .named func.name → after.resolve var = program.resolve var)) := by
  intro step names
  refine ⟨fun entity resolved => addFunction_of_bound (resolve_eq_ok_iff.1 resolved),
    fun unresolved => ?_⟩
  have free := free_of_unresolved unresolved
  refine ⟨fun position name first here => ?_, ?_⟩
  · exact addFunction_of_repeated free (Func.repeatedSlot?_of_first first here)
  · intro unrepeated index
    have distinct : func.repeatedSlot? = none :=
      Func.repeatedSlot?_eq_none_iff.2 (nodup_iff_not_repeatsAt.2 unrepeated)
    have set : Var.named func.name ≠ .unset := nofun
    have grown := Grown.single set free (.function index)
    refine ⟨_, addFunction_of_distinct free distinct, rfl, ?_, ?_, ?_, ?_⟩
    · exact entry_eq_ok_iff.2 Array.getElem?_push_size
    · exact resolve_eq_ok_iff.2 (grown.getElem?_eq_some_iff.2 (.inr (.head _)))
    · intro other elsewhere
      rw [function, function, entry, entry, Array.getElem?_push, if_neg elsewhere]
    · intro var other
      apply resolve_of_getElem?
      apply grown.getElem?_of_notMem
      simpa using other

/-- With a name taken by a signature: a function of that name, whose slots would be refused, too;
one that repeats the names of its params in the reverse order; and one that has its own name and
the taken one among its slots. -/
theorem addFunction_first_repetition_of_slots :
    let func (name : UInt32) (params locals : List UInt32) : Func :=
      ⟨⟨name⟩, .void, params.map fun name => ⟨⟨name⟩, .i32⟩, locals.map fun name => ⟨⟨name⟩, .f64⟩,
        some ⟨9⟩⟩
    let program := empty.after [.addSignature ⟨⟨3⟩, .void, []⟩]
    let adds (func : Func) := (Request.addFunction func).step program
    adds (func 3 [1, 1] []) =
      (.error (.register (.alreadyBound (.named ⟨3⟩) .signature)), program) ∧
    adds (func 0 [1, 2] [2, 1]) = (.error (.register (.duplicateLocal ⟨2⟩)), program) ∧
    ∃ after, adds (func 0 [0] [3, 1]) = (.ok (.index 0), after) ∧
      after.function 0 = .ok (func 0 [0] [3, 1]) ∧
      after.resolve (.named ⟨3⟩) = .ok (.signature 0) := by
  intro func program adds
  have taken : program.resolve (.named ⟨3⟩) = .ok (.signature 0) := by decide +kernel
  have free : program.resolve (.named ⟨0⟩) = .error (.unresolved (.named ⟨0⟩)) := by decide +kernel
  obtain ⟨refuses, -⟩ := addFunction_first_repetition program (func 3 [1, 1] [])
  obtain ⟨-, repeats⟩ := addFunction_first_repetition program (func 0 [1, 2] [2, 1])
  obtain ⟨-, accepts⟩ := addFunction_first_repetition program (func 0 [0] [3, 1])
  refine ⟨refuses _ taken, ?_, ?_⟩
  · refine (repeats free).1 2 ⟨2⟩ ⟨⟨1, by decide, ⟨2⟩, rfl, rfl⟩, fun index again => ?_⟩ rfl
    by_contra lower
    exact nodup_take_iff.1 (by decide) index (Nat.not_le.1 lower) again
  · obtain ⟨after, step, -, stored, -, -, others⟩ :=
      (accepts free).2 (nodup_iff_not_repeatsAt.1 (by decide))
    exact ⟨after, step, stored, (others (.named ⟨3⟩) (by decide)).trans taken⟩

end Program

end TreeIR
