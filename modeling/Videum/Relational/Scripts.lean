import Videum.Relational.Database

/-!
# Definitions and how they are undone

Statements that create something have an inverse, which drops it.  Run on the
database the statement has made, the inverse is never refused and gives the
old database back, rows included: nothing that was there before can depend on
what is new.

## Main results

* `Statement.exec_sound` — statements keep a database sound.
* `undo_exec`, `undo_script` — dropping in reverse order undoes a script.
* `exec_write` — writing rows keeps the definitions and breaks no rule.
-/

namespace Videum.Relational

variable {D D' : Database}

/-- A guarded definition goes through where its guard holds and nothing is
missing afterwards. -/
theorem settled_if {p : Prop} [Decidable p] :
    (if p then D.settled else none) = some D' ↔ p ∧ D.Sound ∧ D' = D := by
  unfold Database.settled
  by_cases hp : p
  · by_cases hs : D.Sound
    · simp [hp, hs, eq_comm]
    · simp [hp, hs]
  · simp [hp]

/-- A guarded write goes through where its guard holds and no rule is broken
afterwards. -/
theorem checked_if {p : Prop} [Decidable p] :
    (if p then D.checked else none) = some D' ↔ p ∧ D.Integral ∧ D' = D := by
  unfold Database.checked
  by_cases hp : p
  · by_cases hi : D.Integral
    · simp [hp, hi, eq_comm]
    · simp [hp, hi]
  · simp [hp]

/-! ## Undoing -/

/-- The statement that drops what this one creates. -/
def Statement.inverse : Statement → Option Statement
  | .createType name _ => some (.dropType name)
  | .createTable t => some (.dropTable t.name)
  | .createIndex i => some (.dropIndex i.name)
  | .addConstraint table c => some (.dropConstraint table c.name)
  | _ => none

theorem filter_of_fresh {α : Type} (name : α → String) {xs : List α}
    {new : String} (h : ∀ x ∈ xs, name x ≠ new) :
    xs.filter (fun x => name x ≠ new) = xs := by
  apply List.filter_eq_self.2
  intro x hx
  rw [decide_eq_true_iff]
  exact h x hx

/-- Dropping by name what was appended gives the old list back. -/
theorem filter_append_of_fresh {α : Type} (name : α → String) {xs : List α}
    (x : α) (h : ∀ y ∈ xs, name y ≠ name x) :
    (xs ++ [x]).filter (fun y => name y ≠ name x) = xs := by
  rw [List.filter_append, filter_of_fresh name h]
  simp

theorem undo_createType {name : String} {labels : List String} (hs : D.Sound)
    (h : (Statement.createType name labels).exec D = some D') :
    (Statement.dropType name).exec D' = some D := by
  obtain ⟨hfresh, _, rfl⟩ := settled_if.1 h
  have hnew : ∀ e ∈ D.types, e.name ≠ name := by
    rintro e he rfl
    exact hfresh (List.mem_append_left _ (List.mem_map_of_mem he))
  have hold := filter_append_of_fresh EnumType.name ⟨name, labels⟩ hnew
  refine settled_if.2 ⟨by simp, ?_⟩
  rw [hold]
  exact ⟨hs, rfl⟩

/-- Nothing that was there before refers to a new table. -/
theorem undo_createTable {t : TableDef} (hs : D.Sound)
    (h : (Statement.createTable t).exec D = some D') :
    (Statement.dropTable t.name).exec D' = some D := by
  obtain ⟨⟨_, hfresh, _⟩, _, rfl⟩ := settled_if.1 h
  have hnew : ∀ u ∈ D.tables, u.name ≠ t.name := by
    intro u hu heq
    apply hfresh
    rw [← heq]
    exact List.mem_append_right _ (List.mem_map_of_mem hu)
  have hindexes : ∀ i ∈ D.indexes, i.table ≠ t.name := by
    intro i hi heq
    obtain ⟨u, hu, hname, _⟩ := hs.indexes i hi
    exact hnew u hu (hname.trans heq)
  have hold :=
    filter_append_of_fresh (fun u : Table => u.name) ⟨t.created, []⟩ hnew
  rw [TableDef.created_name] at hold
  refine settled_if.2 ⟨by simp [Database.tableNames], ?_⟩
  rw [filter_of_fresh Index.table hindexes, hold]
  exact ⟨hs, rfl⟩

theorem undo_createIndex {i : Index} (hs : D.Sound)
    (h : (Statement.createIndex i).exec D = some D') :
    (Statement.dropIndex i.name).exec D' = some D := by
  obtain ⟨⟨_, hfresh⟩, _, rfl⟩ := settled_if.1 h
  have hnew : ∀ j ∈ D.indexes, j.name ≠ i.name := by
    intro j hj heq
    apply hfresh i.name (.head _)
    rw [← heq]
    apply List.mem_append_left
    exact List.mem_append_right _ (List.mem_map_of_mem hj)
  have hold := filter_append_of_fresh Index.name i hnew
  refine settled_if.2 ⟨by simp, ?_⟩
  rw [hold]
  exact ⟨hs, rfl⟩

theorem Database.onTable_onTable {table : String} {f g : Table → Table}
    (hf : ∀ t, (f t).name = t.name) :
    (D.onTable table f).onTable table g = D.onTable table fun t => g (f t) := by
  simp only [onTable, List.map_map]
  congr 1
  apply List.map_congr_left
  intro t _
  by_cases ht : t.name = table
  · simp only [Function.comp_apply, if_pos ht, if_pos ((hf t).trans ht)]
  · simp only [Function.comp_apply, if_neg ht]

theorem Database.onTable_self {table : String} {f : Table → Table}
    (hf : ∀ t ∈ D.tables, t.name = table → f t = t) : D.onTable table f = D := by
  have hsame : (D.tables.map fun t => if t.name = table then f t else t) =
      D.tables := by
    conv_rhs => rw [← List.map_id D.tables]
    apply List.map_congr_left
    intro t ht
    by_cases htable : t.name = table
    · rw [if_pos htable, hf t ht htable, id]
    · rw [if_neg htable, id]
  rw [onTable, hsame]

theorem undo_addConstraint {table : String} {c : Constraint} (hs : D.Sound)
    (h : (Statement.addConstraint table c).exec D = some D') :
    (Statement.dropConstraint table c.name).exec D' = some D := by
  obtain ⟨⟨htable, hfresh, _⟩, _, rfl⟩ := settled_if.1 h
  have hback : (D.onTable table fun t =>
      { t with constraints := t.constraints ++ [c] }).onTable table (fun t =>
        { t with constraints :=
            t.constraints.filter fun c' => c'.name ≠ c.name }) = D := by
    have hname : ∀ t : Table,
        ({ t with constraints := t.constraints ++ [c] } : Table).name = t.name :=
      fun _ => rfl
    rw [Database.onTable_onTable hname]
    apply Database.onTable_self
    intro t ht hname
    have hold := filter_append_of_fresh Constraint.name c fun c' hc' heq =>
      hfresh t ht hname (heq ▸ List.mem_map_of_mem hc')
    dsimp only at hold ⊢
    rw [hold]
  refine settled_if.2 ⟨?_, ?_⟩
  · obtain ⟨t, ht, hname⟩ := List.mem_map.1 htable
    refine ⟨_, List.mem_map_of_mem ht, ?_⟩
    rw [if_pos hname]
    exact ⟨hname, by simp⟩
  · rw [hback]
    exact ⟨hs, rfl⟩

/-- A creation is undone by its inverse, whatever the database holds. -/
theorem undo_exec {s u : Statement} (hs : D.Sound) (h : s.exec D = some D')
    (hinverse : s.inverse = some u) : u.exec D' = some D := by
  cases s with
  | createType name labels =>
      cases hinverse
      exact undo_createType hs h
  | createTable t =>
      cases hinverse
      exact undo_createTable hs h
  | createIndex i =>
      cases hinverse
      exact undo_createIndex hs h
  | addConstraint table c =>
      cases hinverse
      exact undo_addConstraint hs h
  | _ => cases hinverse

/-! ## Soundness -/

/-- The database without its rows. -/
def Database.schema (D : Database) : Database :=
  { D with tables := D.tables.map fun t => ⟨t.toTableDef, []⟩ }

theorem Database.onTable_schema {table : String} {f : Table → Table}
    (hf : ∀ t, (f t).toTableDef = t.toTableDef) :
    (D.onTable table f).schema = D.schema := by
  simp only [schema, onTable, List.map_map]
  congr 1
  apply List.map_congr_left
  intro t _
  by_cases ht : t.name = table
  · simp only [Function.comp_apply, if_pos ht, hf]
  · simp only [Function.comp_apply, if_neg ht]

theorem Database.mem_schema {u : Table} :
    u ∈ D.schema.tables ↔ ∃ t ∈ D.tables, ⟨t.toTableDef, []⟩ = u :=
  List.mem_map

/-- Definitions do not depend on the rows. -/
theorem Database.sound_schema : D.schema.Sound ↔ D.Sound := by
  have hmem : ∀ t ∈ D.tables, ⟨t.toTableDef, []⟩ ∈ D.schema.tables :=
    fun t ht => mem_schema.2 ⟨t, ht, rfl⟩
  have hgrounds : ∀ (t : TableDef) (rule : Rule),
      D.schema.Grounds t rule ↔ D.Grounds t rule := by
    intro t rule
    cases rule with
    | foreignKey column refTable refColumn => simp [Grounds, schema]
    | _ => exact Iff.rfl
  constructor
  · intro h
    refine ⟨fun t ht => h.types ⟨t.toTableDef, []⟩ (hmem t ht), ?_, ?_⟩
    · exact fun t ht c hc => (hgrounds _ _).1 (h.rules _ (hmem t ht) c hc)
    · intro i hi
      obtain ⟨u, hu, hindex⟩ := h.indexes i hi
      obtain ⟨t, ht, rfl⟩ := mem_schema.1 hu
      exact ⟨t, ht, hindex⟩
  · intro h
    refine ⟨?_, ?_, ?_⟩
    · intro u hu
      obtain ⟨t, ht, rfl⟩ := mem_schema.1 hu
      exact h.types t ht
    · intro u hu c hc
      obtain ⟨t, ht, rfl⟩ := mem_schema.1 hu
      exact (hgrounds _ _).2 (h.rules t ht c hc)
    · intro i hi
      obtain ⟨t, ht, hindex⟩ := h.indexes i hi
      exact ⟨_, hmem t ht, hindex⟩

/-- The statements that write rows. -/
def Statement.isWrite : Statement → Bool
  | .insert _ _ _ _ | .update _ _ _ | .delete _ _ => true
  | _ => false

/-- Writing keeps the definitions, and breaks no rule. -/
theorem exec_write {s : Statement} (hs : s.isWrite = true)
    (h : s.exec D = some D') : D'.schema = D.schema ∧ D'.Integral := by
  cases s with
  | insert table given generated now =>
      obtain ⟨_, hintegral, rfl⟩ := checked_if.1 h
      exact ⟨Database.onTable_schema fun _ => rfl, hintegral⟩
  | update table set condition =>
      obtain ⟨_, hintegral, rfl⟩ := checked_if.1 h
      exact ⟨Database.onTable_schema fun _ => rfl, hintegral⟩
  | delete table condition =>
      obtain ⟨_, hintegral, rfl⟩ := checked_if.1 h
      exact ⟨Database.onTable_schema fun _ => rfl, hintegral⟩
  | _ => cases hs

/-- Statements keep a database sound. -/
theorem exec_sound {s : Statement} (hsound : D.Sound)
    (h : s.exec D = some D') : D'.Sound := by
  cases hs : s.isWrite with
  | true =>
      rw [← Database.sound_schema, (exec_write hs h).1]
      exact Database.sound_schema.2 hsound
  | false =>
      cases s with
      | insert _ _ _ _ => cases hs
      | update _ _ _ => cases hs
      | delete _ _ => cases hs
      | _ =>
          obtain ⟨_, hsettled, rfl⟩ := settled_if.1 h
          exact hsettled

/-! ## Scripts -/

/-- The second script drops what the first one creates, in reverse order. -/
def Undoes (down up : List Statement) : Prop :=
  down.map some = (up.map Statement.inverse).reverse

theorem execAll_append (front back : List Statement) (D : Database) :
    execAll (front ++ back) D = (execAll front D).bind (execAll back) :=
  List.foldlM_append ..

/-- A script that has gone through is undone exactly. -/
theorem undo_script {up down : List Statement} (hundoes : Undoes down up)
    (hs : D.Sound) (h : execAll up D = some D') : execAll down D' = some D := by
  induction up generalizing D down with
  | nil =>
      cases List.map_eq_nil_iff.1 hundoes
      cases h
      rfl
  | cons s rest ih =>
      obtain ⟨D₁, hfirst, hrest⟩ := Option.bind_eq_some_iff.1 h
      rw [Undoes, List.map_cons, List.reverse_cons] at hundoes
      obtain ⟨front, back, rfl, hfront, hback⟩ := List.map_eq_append_iff.1 hundoes
      obtain ⟨u, rfl, hinverse⟩ := List.map_eq_singleton_iff.1 hback
      rw [execAll_append, ih hfront (exec_sound hs hfirst) hrest]
      show (Statement.exec u D₁).bind some = some D
      rw [undo_exec hs hfirst hinverse.symm]
      rfl

theorem execAll_sound {script : List Statement} (hs : D.Sound)
    (h : execAll script D = some D') : D'.Sound := by
  induction script generalizing D with
  | nil =>
      cases h
      exact hs
  | cons s rest ih =>
      obtain ⟨D₁, hfirst, hrest⟩ := Option.bind_eq_some_iff.1 h
      exact ih (exec_sound hs hfirst) hrest

end Videum.Relational
