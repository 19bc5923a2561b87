import Videum.Relational.Rows

/-!
# Which writes go through

Whether a write is refused can be told without looking at all the rows: an
insertion by the new row and those it is compared with, a deletion by the rows
that refer to the table.

## Main results

* `insert_iff`, `delete_iff` — which writes go through.
* `Database.fits_newRow` — a new row is looked at column by column.
* `Shows.map_get`, `Shows.concat`, `Shows.filter` — rows that stand for
  things of another type.
-/

namespace Videum.Relational

variable {D D' : Database}

/-! ## Insertions and deletions -/

theorem Database.unique_name (hnames : D.tableNames.Nodup) {t u : Table}
    (ht : t ∈ D.tables) (hu : u ∈ D.tables) (h : t.name = u.name) : t = u :=
  List.inj_on_of_nodup_map hnames ht hu h

/-- Rewriting a table changes what this one refers to, and nothing else. -/
theorem Database.refers_onTable {table refTable refColumn : String}
    {f : Table → Table} {v : Value} (hname : ∀ t, (f t).name = t.name) :
    (D.onTable table f).Refers refTable refColumn v ↔
      v = .null ∨ ∃ u ∈ D.tables, u.name = refTable ∧
        ∃ r ∈ (if u.name = table then f u else u).rows,
          r.get refColumn = v := by
  unfold Refers
  apply or_congr_right
  constructor
  · rintro ⟨u', hu', hname', hr⟩
    obtain ⟨u, hu, rfl⟩ := List.mem_map.1 hu'
    refine ⟨u, hu, ?_, hr⟩
    by_cases htable : u.name = table
    · rwa [if_pos htable, hname] at hname'
    · rwa [if_neg htable] at hname'
  · rintro ⟨u, hu, hname', hr⟩
    refine ⟨_, List.mem_map_of_mem hu, ?_, hr⟩
    by_cases htable : u.name = table
    · rwa [if_pos htable, hname]
    · rwa [if_neg htable]

/-- The new row may stand beside those that are there. -/
def Database.Admits (D : Database) (t : Table) (new : Row) : Rule → Prop
  | .primaryKey columns | .unique columns =>
      ∀ r ∈ t.rows, ¬ r.SameKey columns new
  | .foreignKey column refTable refColumn =>
      D.Refers refTable refColumn (new.get column) ∨
        refTable = t.name ∧ new.get refColumn = new.get column

@[simp] theorem Database.satisfies_primaryKey {t : Table}
    {columns : List String} : D.Satisfies t (.primaryKey columns) ↔
      t.rows.Pairwise fun r r' => ¬ r.SameKey columns r' := Iff.rfl

@[simp] theorem Database.satisfies_unique {t : Table}
    {columns : List String} : D.Satisfies t (.unique columns) ↔
      t.rows.Pairwise fun r r' => ¬ r.SameKey columns r' := Iff.rfl

@[simp] theorem Database.satisfies_foreignKey {t : Table}
    {column refTable refColumn : String} :
    D.Satisfies t (.foreignKey column refTable refColumn) ↔
      ∀ r ∈ t.rows, D.Refers refTable refColumn (r.get column) := Iff.rfl

@[simp] theorem Database.admits_primaryKey {t : Table} {new : Row}
    {columns : List String} : D.Admits t new (.primaryKey columns) ↔
      ∀ r ∈ t.rows, ¬ r.SameKey columns new := Iff.rfl

@[simp] theorem Database.admits_unique {t : Table} {new : Row}
    {columns : List String} : D.Admits t new (.unique columns) ↔
      ∀ r ∈ t.rows, ¬ r.SameKey columns new := Iff.rfl

@[simp] theorem Database.admits_foreignKey {t : Table} {new : Row}
    {column refTable refColumn : String} :
    D.Admits t new (.foreignKey column refTable refColumn) ↔
      D.Refers refTable refColumn (new.get column) ∨
        refTable = t.name ∧ new.get refColumn = new.get column := Iff.rfl

section Insert

variable {t : Table} {f : Table → Table} {new : Row}
  (hnames : D.tableNames.Nodup) (ht : t ∈ D.tables)
  (hname : ∀ u, (f u).name = u.name) (hrows : (f t).rows = t.rows ++ [new])

include hnames ht hname hrows

theorem Database.refers_insert {refTable refColumn : String} {v : Value} :
    (D.onTable t.name f).Refers refTable refColumn v ↔
      D.Refers refTable refColumn v ∨
        refTable = t.name ∧ new.get refColumn = v := by
  rw [refers_onTable hname]
  constructor
  · rintro (hnull | ⟨u, hu, rfl, r, hr, hv⟩)
    · exact .inl (.inl hnull)
    by_cases htable : u.name = t.name
    · rw [if_pos htable, unique_name hnames hu ht htable, hrows] at hr
      rcases List.mem_append.1 hr with hold | hnew
      · exact .inl (.inr ⟨t, ht, htable.symm, r, hold, hv⟩)
      · rw [List.mem_singleton.1 hnew] at hv
        exact .inr ⟨htable, hv⟩
    · rw [if_neg htable] at hr
      exact .inl (.inr ⟨u, hu, rfl, r, hr, hv⟩)
  · rintro ((hnull | ⟨u, hu, rfl, r, hr, hv⟩) | ⟨rfl, hv⟩)
    · exact .inl hnull
    · refine .inr ⟨u, hu, rfl, r, ?_, hv⟩
      by_cases htable : u.name = t.name
      · rw [if_pos htable, unique_name hnames hu ht htable, hrows]
        rw [unique_name hnames hu ht htable] at hr
        exact List.mem_append_left _ hr
      · rwa [if_neg htable]
    · refine .inr ⟨t, ht, rfl, new, ?_, hv⟩
      rw [if_pos rfl, hrows]
      exact List.mem_append_right _ (List.mem_singleton_self new)

/-- A rule that was obeyed is obeyed with the new row, too, if it admits
it. -/
theorem Database.satisfies_insert {rule : Rule} (h : D.Satisfies t rule) :
    (D.onTable t.name f).Satisfies (f t) rule ↔ D.Admits t new rule := by
  cases rule with
  | foreignKey column refTable refColumn =>
      rw [satisfies_foreignKey, hrows, List.forall_mem_append,
        List.forall_mem_singleton]
      simp only [refers_insert hnames ht hname hrows, admits_foreignKey]
      exact and_iff_right fun r hr => .inl (h r hr)
  | primaryKey columns =>
      rw [satisfies_primaryKey, hrows, List.pairwise_append]
      simp only [List.mem_singleton, forall_eq, admits_primaryKey]
      exact ⟨fun hall => hall.2.2, fun hnew =>
        ⟨h, List.pairwise_singleton _ _, hnew⟩⟩
  | unique columns =>
      rw [satisfies_unique, hrows, List.pairwise_append]
      simp only [List.mem_singleton, forall_eq, admits_unique]
      exact ⟨fun hall => hall.2.2, fun hnew =>
        ⟨h, List.pairwise_singleton _ _, hnew⟩⟩

theorem Database.integral_insert (hcolumns : (f t).columns = t.columns)
    (hconstraints : (f t).constraints = t.constraints) (hi : D.Integral) :
    (D.onTable t.name f).Integral ↔ D.Fits t.toTableDef new ∧
      ∀ c ∈ t.constraints, D.Admits t new c.rule := by
  have hmem : f t ∈ (D.onTable t.name f).tables :=
    List.mem_map.2 ⟨t, ht, if_pos rfl⟩
  have hsat : ∀ c ∈ t.constraints,
      (D.onTable t.name f).Satisfies (f t) c.rule ↔ D.Admits t new c.rule :=
    fun c hc => satisfies_insert hnames ht hname hrows (hi.rules t ht c hc)
  constructor
  · intro h
    constructor
    · have hfits := h.fits (f t) hmem new
        (hrows ▸ List.mem_append_right _ (List.mem_singleton_self new))
      apply hfits.of_types
      · rfl
      · exact hcolumns.symm
    · intro c hc
      exact (hsat c hc).1 (h.rules (f t) hmem c (hconstraints ▸ hc))
  · rintro ⟨hfits, hadmits⟩
    constructor
    · intro u' hu' r hr
      obtain ⟨u, hu, rfl⟩ := List.mem_map.1 hu'
      by_cases htable : u.name = t.name
      · rw [if_pos htable] at hr ⊢
        rw [unique_name hnames hu ht htable] at hr ⊢
        have hr' : D.Fits t.toTableDef r := by
          rcases List.mem_append.1 (hrows ▸ hr) with hold | hnew
          · exact hi.fits t ht r hold
          · rw [List.mem_singleton.1 hnew]
            exact hfits
        apply hr'.of_types
        · rfl
        · exact hcolumns
      · rw [if_neg htable] at hr ⊢
        apply (hi.fits u hu r hr).of_types <;> rfl
    · intro u' hu' c hc
      obtain ⟨u, hu, rfl⟩ := List.mem_map.1 hu'
      by_cases htable : u.name = t.name
      · rw [if_pos htable] at hc ⊢
        rw [unique_name hnames hu ht htable] at hc ⊢
        rw [hconstraints] at hc
        exact (hsat c hc).2 (hadmits c hc)
      · rw [if_neg htable] at hc ⊢
        apply (hi.rules u hu c hc).mono rfl
        intro _ _ _ v _ hv
        exact (refers_insert hnames ht hname hrows).2 (.inl hv)

end Insert

/-- Whether an insertion goes through depends on the new row, and on the
rows its rules compare it with. -/
theorem insert_iff {t : Table} {given : Row} {generated : String} {now : Int}
    (hi : D.Integral) (hnames : D.tableNames.Nodup) (ht : t ∈ D.tables) :
    (Statement.insert t.name given generated now).exec D = some D' ↔
      (given.map Prod.fst ⊆ t.columnNames ∧
        D.Fits t.toTableDef (t.newRow given generated now) ∧
        ∀ c ∈ t.constraints,
          D.Admits t (t.newRow given generated now) c.rule) ∧
      D' = D.onTable t.name fun t =>
        { t with rows := t.rows ++ [t.newRow given generated now] } := by
  have hcolumns : (∃ u ∈ D.tables, u.name = t.name ∧
      given.map Prod.fst ⊆ u.columnNames) ↔
      given.map Prod.fst ⊆ t.columnNames := by
    constructor
    · rintro ⟨u, hu, hname, hsub⟩
      rwa [Database.unique_name hnames hu ht hname] at hsub
    · exact fun hsub => ⟨t, ht, rfl, hsub⟩
  have hintegral := Database.integral_insert hnames ht
    (f := fun t => { t with rows := t.rows ++ [t.newRow given generated now] })
    (fun _ => rfl) rfl rfl rfl hi
  rw [Statement.exec, checked_if, hcolumns, hintegral]
  simp only [and_assoc]

section Delete

variable {table : String} {condition : Row → Bool}

/-- The table after a deletion from the table of this name. -/
def Table.without (table : String) (condition : Row → Bool) (u : Table) :
    Table :=
  if u.name = table then
    { u with rows := u.rows.filter fun r => !condition r }
  else u

@[simp] theorem Table.without_constraints {u : Table} :
    (u.without table condition).constraints = u.constraints := by
  unfold Table.without
  split <;> rfl

theorem Table.mem_without {u : Table} {r : Row} :
    r ∈ (u.without table condition).rows ↔
      r ∈ u.rows ∧ (u.name = table → condition r = false) := by
  unfold Table.without
  by_cases htable : u.name = table <;> simp [htable]

theorem Table.without_sublist {u : Table} :
    (u.without table condition).rows.Sublist u.rows := by
  unfold Table.without
  split
  · exact List.filter_sublist
  · exact List.Sublist.refl _

theorem refers_delete {refTable refColumn : String} {v : Value} :
    (D.onTable table fun t =>
        { t with rows := t.rows.filter fun r => !condition r }).Refers
      refTable refColumn v ↔
      v = .null ∨ ∃ u ∈ D.tables, u.name = refTable ∧
        ∃ r ∈ u.rows, r.get refColumn = v ∧
          (refTable = table → condition r = false) := by
  have hname : ∀ t : Table, ({ t with
      rows := t.rows.filter fun r => !condition r } : Table).name = t.name :=
    fun _ => rfl
  rw [Database.refers_onTable hname]
  apply or_congr_right
  apply exists_congr
  intro u
  apply and_congr_right
  intro _
  apply and_congr_right
  rintro rfl
  apply exists_congr
  intro r
  have hmem : r ∈ (u.without table condition).rows ↔ _ := Table.mem_without
  unfold Table.without at hmem
  rw [hmem, and_assoc, and_comm (a := _ → _)]

/-- Whether a deletion goes through depends on the rows that stay and refer
to the table. -/
theorem delete_iff (hi : D.Integral) :
    (Statement.delete table condition).exec D = some D' ↔
      (table ∈ D.tableNames ∧
        ∀ u ∈ D.tables, ∀ c ∈ u.constraints, ∀ column refColumn,
          c.rule = .foreignKey column table refColumn →
          ∀ r ∈ u.rows, (u.name = table → condition r = false) →
          r.get column = .null ∨ ∃ t ∈ D.tables, t.name = table ∧
            ∃ r' ∈ t.rows, r'.get refColumn = r.get column ∧
              condition r' = false) ∧
      D' = D.onTable table fun t =>
        { t with rows := t.rows.filter fun r => !condition r } := by
  rw [Statement.exec, checked_if, and_assoc]
  apply and_congr_right
  intro _
  apply and_congr_left
  intro _
  constructor
  · intro h u hu c hc column refColumn hrule r hr hstays
    have hc' : c ∈ (u.without table condition).constraints := by
      rwa [Table.without_constraints]
    have hsat := h.rules _ (List.mem_map_of_mem hu) c hc'
    rw [hrule, Database.satisfies_foreignKey] at hsat
    have hrefers := hsat r (Table.mem_without.2 ⟨hr, hstays⟩)
    simpa only [refers_delete, true_imp_iff] using hrefers
  · intro h
    constructor
    · intro u' hu' r hr
      obtain ⟨u, hu, rfl⟩ := List.mem_map.1 hu'
      have hfits := hi.fits u hu r (Table.mem_without.1 hr).1
      apply hfits.of_types
      · rfl
      · split <;> rfl
    · intro u' hu' c hc
      obtain ⟨u, hu, rfl⟩ := List.mem_map.1 hu'
      have hc' : c ∈ u.constraints := by
        rwa [← Table.without_constraints]
      have hsat := hi.rules u hu c hc'
      cases hrule : c.rule with
      | primaryKey columns =>
          rw [hrule] at hsat
          exact hsat.sublist Table.without_sublist
      | unique columns =>
          rw [hrule] at hsat
          exact hsat.sublist Table.without_sublist
      | foreignKey column refTable refColumn =>
          rw [hrule] at hsat
          intro r hkept
          obtain ⟨hr, hstays⟩ := Table.mem_without.1 hkept
          rw [refers_delete]
          by_cases hrefTable : refTable = table
          · subst hrefTable
            simpa only [true_imp_iff] using
              h u hu c hc' column refColumn hrule r hr hstays
          · simpa only [Database.Refers, hrefTable, false_imp_iff,
              and_true] using hsat r hr

end Delete

/-! ## The row that is inserted -/

section NewRow

variable {t : TableDef} {given : Row} {generated : String} {now : Int}

theorem newRow_get (hnames : t.columnNames.Nodup) {c : Column}
    (hc : c ∈ t.columns) :
    (t.newRow given generated now).get c.name =
      c.type.stored (c.value given generated now) := by
  obtain ⟨name, columns, constraints⟩ := t
  rw [Row.get, TableDef.newRow]
  dsimp only [TableDef.columnNames] at hnames hc ⊢
  induction columns with
  | nil => cases hc
  | cons c' rest ih =>
      rw [List.map_cons, List.nodup_cons] at hnames
      rw [List.map_cons, List.lookup_cons]
      rcases List.mem_cons.1 hc with rfl | hc
      · simp
      · have hne : c.name ≠ c'.name := fun heq =>
          hnames.1 (heq ▸ List.mem_map_of_mem hc)
        rw [beq_eq_false_iff_ne.2 hne]
        exact ih hnames.2 hc

/-- The values are stored as they are: no text is cut. -/
def TableDef.Keeps (t : TableDef) (given : Row) (generated : String)
    (now : Int) : Prop :=
  ∀ c ∈ t.columns, c.type.stored (c.value given generated now) =
    c.value given generated now

instance : Decidable (t.Keeps given generated now) :=
  inferInstanceAs (Decidable (∀ c ∈ t.columns, _))

theorem TableDef.Keeps.newRow_eq (h : t.Keeps given generated now) :
    t.newRow given generated now =
      t.columns.map fun c => (c.name, c.value given generated now) := by
  apply List.map_congr_left
  intro c hc
  rw [h c hc]

/-- The values are looked at column by column. -/
theorem Database.fits_newRow (hnames : t.columnNames.Nodup)
    (hkeeps : t.Keeps given generated now) :
    D.Fits t (t.newRow given generated now) ↔ ∀ c ∈ t.columns,
      D.accepts c.type (c.value given generated now) = true ∧
      (c.notNull = true → c.value given generated now ≠ .null) := by
  have hget : ∀ c ∈ t.columns, (t.newRow given generated now).get c.name =
      c.value given generated now :=
    fun c hc => (newRow_get hnames hc).trans (hkeeps c hc)
  constructor
  · intro h c hc
    rw [← hget c hc]
    exact ⟨h.values c hc, h.notNull c hc⟩
  · intro h
    refine ⟨?_, ?_, ?_⟩
    · simp [TableDef.newRow, TableDef.columnNames]
    · intro c hc
      rw [hget c hc]
      exact (h c hc).1
    · intro c hc
      rw [hget c hc]
      exact (h c hc).2

end NewRow

namespace Database

@[simp] theorem accepts_null {type : ColumnType} :
    D.accepts type .null = true := by
  cases type with
  | varchar limit => cases limit <;> rfl
  | _ => rfl

@[simp] theorem accepts_uuid {text : String} :
    D.accepts .uuid (.uuid text) = isUuid text := rfl

@[simp] theorem accepts_varchar {s : String} :
    D.accepts (.varchar none) (.text s) = isText s := rfl

@[simp] theorem accepts_varchar_limit {limit : Nat} {s : String} :
    D.accepts (.varchar (some limit)) (.text s) = true ↔
      isText s = true ∧ s.length ≤ limit := by
  simp [accepts]

@[simp] theorem accepts_boolean {b : Bool} :
    D.accepts .boolean (.bool b) = true := rfl

@[simp] theorem accepts_bigint {n : Int} :
    D.accepts .bigint (.int n) = true ↔
      -9223372036854775808 ≤ n ∧ n < 9223372036854775808 := by
  simp [accepts]

@[simp] theorem accepts_timestamp {time : Int} :
    D.accepts .timestamp (.time time) = isTimestamp time := rfl

end Database

/-! ## What is written -/

/-- The values that a statement writes. -/
def Statement.values : Statement → List Value
  | .insert _ given generated now =>
      given.map Prod.snd ++ [.uuid generated, .time now]
  | .update _ set _ => set.map Prod.snd
  | _ => []

/-- An insertion stores its values as they are. -/
def Statement.Keeps (D : Database) : Statement → Prop
  | .insert table given generated now =>
      ∀ t ∈ D.tables, t.name = table → t.Keeps given generated now
  | _ => True

/-- The statement writes values that there are, and nothing is cut. -/
structure Statement.Plain (D : Database) (s : Statement) : Prop where
  values : ∀ v ∈ s.values, v.isValid = true
  keeps : s.Keeps D

/-- What an insertion is given is valid, and so is what is generated. -/
theorem Statement.Plain.insert {table : String} {given : Row}
    {generated : String} {now : Int}
    (h : (Statement.insert table given generated now).Plain D) :
    (∀ v ∈ given.map Prod.snd, v.isValid = true) ∧ isUuid generated = true ∧
      isTimestamp now = true := by
  have hvalues := h.values
  rw [Statement.values, List.forall_mem_append, List.forall_mem_cons,
    List.forall_mem_singleton] at hvalues
  exact hvalues

/-! ## Rows that show what they stand for -/

/-- The row has these values, and maybe more. -/
def Row.Has (r given : Row) : Prop := ∀ v ∈ given, r.get v.1 = v.2

instance (r given : Row) : Decidable (r.Has given) :=
  inferInstanceAs (Decidable (∀ v ∈ given, r.get v.1 = v.2))

/-- The rows stand for these things, in this order. -/
def Shows {α : Type} (encode : α → Row) (rows : List Row) (xs : List α) :
    Prop :=
  List.Forall₂ (fun r x => r.Has (encode x)) rows xs

namespace Shows

variable {α : Type} {encode : α → Row} {rows : List Row} {xs : List α}

/-- What a column shows. -/
theorem map_get (h : Shows encode rows xs) {column : String} {v : α → Value}
    (hv : ∀ x, (column, v x) ∈ encode x) :
    rows.map (fun r => r.get column) = xs.map v := by
  induction h with
  | nil => rfl
  | cons hhas _ ih =>
      rw [List.map_cons, List.map_cons, ih]
      congr 1
      exact hhas _ (hv _)

theorem concat (h : Shows encode rows xs) {r : Row} {x : α}
    (hr : r.Has (encode x)) : Shows encode (rows ++ [r]) (xs ++ [x]) :=
  List.rel_append h (.cons hr .nil)

/-- Rows and things are removed by the same condition. -/
theorem filter (h : Shows encode rows xs) {p : Row → Bool} {q : α → Bool}
    (hpq : ∀ r x, r.Has (encode x) → p r = q x) :
    Shows encode (rows.filter p) (xs.filter q) := by
  induction h with
  | nil => exact .nil
  | @cons r x _ _ hhas _ ih =>
      rw [List.filter_cons, List.filter_cons, hpq r x hhas]
      split
      · exact .cons hhas ih
      · exact ih

end Shows

theorem Value.text_ne_null {s : String} : Value.text s ≠ .null := by
  intro h
  cases h

theorem Value.uuid_ne_null {text : String} : Value.uuid text ≠ .null := by
  intro h
  cases h

namespace Database

theorem admits_unique_single {t : Table} {new : Row} {column : String}
    (hnew : new.get column ≠ .null) :
    D.Admits t new (.unique [column]) ↔
      new.get column ∉ t.rows.map fun r => r.get column := by
  simp only [admits_unique, Row.SameKey, List.mem_singleton, forall_eq,
    List.mem_map, not_exists, not_and]
  apply forall_congr'
  intro r
  constructor
  · exact fun h hr heq => h hr (heq ▸ hnew) heq
  · exact fun h hr _ heq => h hr heq

theorem admits_primaryKey_single {t : Table} {new : Row} {column : String}
    (hnew : new.get column ≠ .null) :
    D.Admits t new (.primaryKey [column]) ↔
      new.get column ∉ t.rows.map fun r => r.get column := by
  have h : D.Admits t new (.unique [column]) ↔ _ := admits_unique_single hnew
  exact h

end Database

end Videum.Relational
