import Mathlib.Data.List.Induction
import Videum.Common.Table
import Videum.Relational.Rows

/-!
# Migrations

A migration is a script together with the one that undoes it.  A deployment
is a database with the migrations executed on it.  Commands run what is
pending or undo what was executed last, and in between rows are written.

The schema alone decides whether a definition goes through, but for a new
constraint, which the rows have to satisfy.  Migrations that constrain only
the tables they create themselves therefore never meet a row, and if they run
on the empty database then they run on every database they can meet.

## Main results

* `execAll_of_schema` — a script that runs on the schema runs on the database.
* `History.deploy_kept` — no command ever fails, the schema is the one of the
  migrations executed, and the rows obey it.
-/

namespace Videum.Relational

variable {D D' S : Database}

/-! ## What a script creates before it constrains it -/

def Statement.created? : Statement → Option String
  | .createTable t => some t.name
  | _ => none

def Statement.constrained? : Statement → Option String
  | .addConstraint table _ => some table
  | _ => none

/-- The script writes no rows, and constrains only these tables and those it
has created. -/
def SelfContained (created : List String) : List Statement → Bool
  | [] => true
  | s :: rest =>
      !s.isWrite && s.constrained?.all (created.contains ·) &&
      SelfContained (created ++ s.created?.toList) rest

namespace Database

/-- The tables of these names have no rows. -/
def EmptyAt (D : Database) (names : List String) : Prop :=
  ∀ t ∈ D.tables, t.name ∈ names → t.rows = []

theorem EmptyAt.nil : D.EmptyAt [] := fun _ _ h => by cases h

theorem Satisfies.of_empty {t : Table} (h : t.rows = []) (rule : Rule) :
    D.Satisfies t rule := by
  cases rule with
  | foreignKey column refTable refColumn =>
      intro r hr
      rw [h] at hr
      cases hr
  | primaryKey columns =>
      unfold Satisfies
      rw [h]
      exact List.Pairwise.nil
  | unique columns =>
      unfold Satisfies
      rw [h]
      exact List.Pairwise.nil

/-! ## The schema has the same names -/

@[simp] theorem schema_types : D.schema.types = D.types := rfl

@[simp] theorem schema_tableNames : D.schema.tableNames = D.tableNames := by
  simp [tableNames, schema]

@[simp] theorem schema_typeNames : D.schema.typeNames = D.typeNames := by
  simp [typeNames]

@[simp] theorem schema_relationNames :
    D.schema.relationNames = D.relationNames := by
  simp [relationNames, schema, tableNames, List.flatMap_map]

@[simp] theorem schema_freshNames {names : List String} :
    D.schema.FreshNames names ↔ D.FreshNames names := by
  simp [FreshNames]

/-- What changes the definition of a table changes its schema. -/
theorem schema_onTable {table : String} {f : Table → Table}
    (hf : ∀ t, f ⟨t.toTableDef, []⟩ = ⟨(f t).toTableDef, []⟩) :
    (D.onTable table f).schema = D.schema.onTable table f := by
  simp only [schema, onTable, List.map_map]
  congr 1
  apply List.map_congr_left
  intro t _
  by_cases ht : t.name = table
  · simp only [Function.comp_apply, if_pos ht, hf]
  · simp only [Function.comp_apply, if_neg ht]

end Database

/-! ## Definitions and the schema -/

/-- The schema decides whether a definition goes through, as long as no row
is constrained. -/
theorem exec_of_schema {s : Statement} (hs : s.isWrite = false)
    (hempty : D.EmptyAt s.constrained?.toList)
    (h : s.exec D.schema = some S) :
    ∃ D', s.exec D = some D' ∧ D'.schema = S := by
  cases s with
  | createType name labels =>
      obtain ⟨hfresh, hsound, rfl⟩ := settled_if.1 h
      rw [Database.schema_typeNames] at hfresh
      exact ⟨_, settled_if.2 ⟨hfresh, Database.sound_schema.1 hsound, rfl⟩, rfl⟩
  | dropType name =>
      obtain ⟨hthere, hsound, rfl⟩ := settled_if.1 h
      exact ⟨_, settled_if.2 ⟨hthere, Database.sound_schema.1 hsound, rfl⟩, rfl⟩
  | createTable t =>
      obtain ⟨⟨hfresh, htype, hnames⟩, hsound, rfl⟩ := settled_if.1 h
      rw [Database.schema_freshNames] at hfresh
      rw [Database.schema_typeNames] at htype
      have hschema : ({ D with tables := D.tables ++ [⟨t.created, []⟩] } :
          Database).schema =
          { D.schema with tables := D.schema.tables ++ [⟨t.created, []⟩] } := by
        simp [Database.schema]
      rw [← hschema] at hsound ⊢
      exact ⟨_, settled_if.2
        ⟨⟨hfresh, htype, hnames⟩, Database.sound_schema.1 hsound, rfl⟩, rfl⟩
  | dropTable name =>
      obtain ⟨hthere, hsound, rfl⟩ := settled_if.1 h
      rw [Database.schema_tableNames] at hthere
      have hschema : ({ D with
          tables := D.tables.filter fun t => t.name ≠ name
          indexes := D.indexes.filter fun i => i.table ≠ name } :
          Database).schema =
          { D.schema with
            tables := D.schema.tables.filter fun t => t.name ≠ name
            indexes := D.schema.indexes.filter fun i => i.table ≠ name } := by
        simp [Database.schema, List.filter_map, Function.comp_def]
      rw [← hschema] at hsound ⊢
      exact ⟨_, settled_if.2 ⟨hthere, Database.sound_schema.1 hsound, rfl⟩, rfl⟩
  | createIndex i =>
      obtain ⟨hfresh, hsound, rfl⟩ := settled_if.1 h
      rw [Database.schema_freshNames] at hfresh
      exact ⟨_, settled_if.2 ⟨hfresh, Database.sound_schema.1 hsound, rfl⟩, rfl⟩
  | dropIndex name =>
      obtain ⟨hthere, hsound, rfl⟩ := settled_if.1 h
      exact ⟨_, settled_if.2 ⟨hthere, Database.sound_schema.1 hsound, rfl⟩, rfl⟩
  | addConstraint table c =>
      obtain ⟨⟨hthere, hname, hfresh, _⟩, hsound, rfl⟩ := settled_if.1 h
      rw [Database.schema_tableNames] at hthere
      rw [Database.schema_freshNames] at hfresh
      have hschema : (D.onTable table fun t =>
          { t with constraints := t.constraints ++ [c] }).schema =
          D.schema.onTable table fun t =>
            { t with constraints := t.constraints ++ [c] } :=
        Database.schema_onTable fun _ => rfl
      rw [← hschema] at hsound ⊢
      refine ⟨_, settled_if.2
        ⟨⟨hthere, ?_, hfresh, ?_⟩, Database.sound_schema.1 hsound, rfl⟩, rfl⟩
      · intro t ht
        exact hname ⟨t.toTableDef, []⟩ (Database.mem_schema.2 ⟨t, ht, rfl⟩)
      · -- the constrained table has no rows
        intro t' ht' ht'name
        obtain ⟨t, ht, rfl⟩ := List.mem_map.1 ht'
        apply Database.Satisfies.of_empty
        by_cases htable : t.name = table
        · rw [if_pos htable]
          exact hempty t ht (by simp [Statement.constrained?, htable])
        · rw [if_neg htable] at ht'name
          exact absurd ht'name htable
  | dropConstraint table name =>
      obtain ⟨⟨u, hu, hthere⟩, hsound, rfl⟩ := settled_if.1 h
      obtain ⟨t, ht, rfl⟩ := Database.mem_schema.1 hu
      have hschema : (D.onTable table fun t =>
          { t with constraints :=
              t.constraints.filter fun c => c.name ≠ name }).schema =
          D.schema.onTable table fun t =>
            { t with constraints :=
                t.constraints.filter fun c => c.name ≠ name } :=
        Database.schema_onTable fun _ => rfl
      rw [← hschema] at hsound ⊢
      exact ⟨_, settled_if.2
        ⟨⟨t, ht, hthere⟩, Database.sound_schema.1 hsound, rfl⟩, rfl⟩
  | insert _ _ _ _ => cases hs
  | update _ _ _ => cases hs
  | delete _ _ => cases hs

theorem emptyAt_onTable {table : String} {f : Table → Table}
    {created : List String} (hname : ∀ t, (f t).name = t.name)
    (hrows : ∀ t, (f t).rows = t.rows) (hempty : D.EmptyAt created) :
    (D.onTable table f).EmptyAt created := by
  intro t' ht' hcreated
  obtain ⟨t, ht, rfl⟩ := List.mem_map.1 ht'
  by_cases htable : t.name = table
  · rw [if_pos htable, hname] at hcreated
    rw [if_pos htable, hrows]
    exact hempty t ht hcreated
  · rw [if_neg htable] at hcreated ⊢
    exact hempty t ht hcreated

/-- A table has no rows before some are written. -/
theorem exec_emptyAt {s : Statement} {created : List String}
    (hs : s.isWrite = false) (hempty : D.EmptyAt created)
    (h : s.exec D = some D') : D'.EmptyAt (created ++ s.created?.toList) := by
  cases s with
  | createTable t =>
      obtain ⟨⟨_, hfresh, _⟩, _, rfl⟩ := settled_if.1 h
      intro u hu hname
      rcases List.mem_append.1 hu with hu | hu
      · rcases List.mem_append.1 hname with hname | hname
        · exact hempty u hu hname
        · refine absurd ?_ hfresh
          rw [← List.mem_singleton.1 hname]
          exact List.mem_append_right _ (List.mem_map_of_mem hu)
      · rw [List.mem_singleton.1 hu]
  | dropTable name =>
      obtain ⟨_, _, rfl⟩ := settled_if.1 h
      intro u hu hname
      simp only [Statement.created?, Option.toList_none, List.append_nil] at hname
      exact hempty u (List.mem_filter.1 hu).1 hname
  | addConstraint table c =>
      obtain ⟨_, _, rfl⟩ := settled_if.1 h
      simp only [Statement.created?, Option.toList_none, List.append_nil]
      refine emptyAt_onTable ?_ ?_ hempty <;> exact fun _ => rfl
  | dropConstraint table name =>
      obtain ⟨_, _, rfl⟩ := settled_if.1 h
      simp only [Statement.created?, Option.toList_none, List.append_nil]
      refine emptyAt_onTable ?_ ?_ hempty <;> exact fun _ => rfl
  | insert _ _ _ _ => cases hs
  | update _ _ _ => cases hs
  | delete _ _ => cases hs
  | _ =>
      obtain ⟨_, _, rfl⟩ := settled_if.1 h
      simp only [Statement.created?, Option.toList_none, List.append_nil]
      exact hempty

/-- A script that runs on the schema runs on the database, too. -/
theorem execAll_of_schema {script : List Statement} {created : List String}
    (hself : SelfContained created script = true) (hempty : D.EmptyAt created)
    (h : execAll script D.schema = some S) :
    ∃ D', execAll script D = some D' ∧ D'.schema = S := by
  induction script generalizing D created with
  | nil =>
      cases h
      exact ⟨D, rfl, rfl⟩
  | cons s rest ih =>
      obtain ⟨S₁, hfirst, hrest⟩ := Option.bind_eq_some_iff.1 h
      rw [SelfContained, Bool.and_eq_true, Bool.and_eq_true,
        Bool.not_eq_true', Option.all_eq_true] at hself
      obtain ⟨⟨hwrite, hconstrained⟩, hself⟩ := hself
      have hnew : D.EmptyAt s.constrained?.toList := by
        intro t ht hname
        rw [Option.mem_toList] at hname
        exact hempty t ht (List.contains_iff_mem.1 (hconstrained _ hname))
      obtain ⟨D₁, hD₁, rfl⟩ := exec_of_schema hwrite hnew hfirst
      obtain ⟨D', hD', hschema⟩ :=
        ih hself (exec_emptyAt hwrite hempty hD₁) hrest
      exact ⟨D', Option.bind_eq_some_iff.2 ⟨D₁, hD₁, hD'⟩, hschema⟩

theorem SelfContained.mono {script : List Statement}
    {created created' : List String} (hsub : created ⊆ created')
    (h : SelfContained created script = true) :
    SelfContained created' script = true := by
  induction script generalizing created created' with
  | nil => rfl
  | cons s rest ih =>
      rw [SelfContained, Bool.and_eq_true, Bool.and_eq_true] at h ⊢
      obtain ⟨⟨hwrite, hconstrained⟩, hrest⟩ := h
      have happend : created ++ s.created?.toList ⊆
          created' ++ s.created?.toList := by
        intro name hname
        rw [List.mem_append] at hname ⊢
        exact hname.imp_left fun h => hsub h
      refine ⟨⟨hwrite, ?_⟩, ih happend hrest⟩
      rw [Option.all_eq_true] at hconstrained ⊢
      intro table htable
      have hmem := List.contains_iff_mem.1 (hconstrained table htable)
      exact List.contains_iff_mem.2 (hsub hmem)

theorem SelfContained.append {front back : List Statement}
    {created : List String} (hfront : SelfContained created front = true)
    (hback : SelfContained [] back = true) :
    SelfContained created (front ++ back) = true := by
  induction front generalizing created with
  | nil => exact SelfContained.mono (List.nil_subset _) hback
  | cons s rest ih =>
      rw [SelfContained, Bool.and_eq_true] at hfront
      rw [List.cons_append, SelfContained, Bool.and_eq_true]
      exact ⟨hfront.1, ih hfront.2⟩

/-- Where nothing is written and nothing constrained, nothing has to be
created first. -/
theorem SelfContained.of_drops {script : List Statement}
    (h : ∀ s ∈ script, s.isWrite = false ∧ s.constrained? = none)
    (created : List String) : SelfContained created script = true := by
  induction script generalizing created with
  | nil => rfl
  | cons s rest ih =>
      obtain ⟨hwrite, hconstrained⟩ := h s (.head _)
      rw [SelfContained, hwrite, hconstrained,
        ih fun s hs => h s (.tail _ hs)]
      rfl

/-- What undoes a script only drops. -/
theorem SelfContained.of_undoes {up down : List Statement}
    (h : Undoes down up) : SelfContained [] down = true := by
  apply SelfContained.of_drops
  intro u hu
  have hmem : some u ∈ down.map some := List.mem_map_of_mem hu
  rw [h, List.mem_reverse] at hmem
  obtain ⟨s, _, hs⟩ := List.mem_map.1 hmem
  cases s <;> cases hs <;> exact ⟨rfl, rfl⟩

/-! ## Deployments -/

structure Migration where
  name : String
  up : List Statement
  down : List Statement
  undoes : Undoes down up
  selfContained : SelfContained [] up = true

/-- The migrations of a program, the oldest first. -/
structure History where
  migrations : List Migration
  names : (migrations.map Migration.name).Nodup
  /-- together they run on an empty database -/
  runs : (execAll (migrations.flatMap Migration.up) {}).isSome = true

/-- A database, and the names of the migrations executed on it. -/
structure Deployment where
  database : Database := {}
  executed : List String := []

inductive Command
  | runPending
  | undoLast
  | write (s : Statement) (isWrite : s.isWrite = true)

namespace History

variable (H : History)

def pending (d : Deployment) : List Migration :=
  H.migrations.filter fun m => m.name ∉ d.executed

/-- The deployment after a command; `none` when it fails.  A write that is
refused leaves everything as it is. -/
def exec : Command → Deployment → Option Deployment
  | .runPending, d =>
      (execAll ((H.pending d).flatMap Migration.up) d.database).map fun D =>
        ⟨D, d.executed ++ (H.pending d).map Migration.name⟩
  | .undoLast, d =>
      match d.executed.getLast? with
      | none => some d
      | some name =>
          (H.migrations.find? fun m => m.name == name).bind fun m =>
            (execAll m.down d.database).map fun D =>
              ⟨D, d.executed.dropLast⟩
  | .write s _, d =>
      some { d with database := (s.exec d.database).getD d.database }

def run (commands : List Command) (d : Deployment) : Option Deployment :=
  commands.foldlM (fun d c => H.exec c d) d

/-- The deployment after the commands, from the empty database. -/
def deploy (commands : List Command) : Option Deployment := H.run commands {}

theorem run_cons (c : Command) (rest : List Command) (d : Deployment) :
    H.run (c :: rest) d = (H.exec c d).bind (H.run rest) := rfl

theorem run_append (front back : List Command) (d : Deployment) :
    H.run (front ++ back) d = (H.run front d).bind (H.run back) :=
  List.foldlM_append ..

/-- How many migrations are executed after a command, of how many before. -/
def count : Command → Nat → Nat
  | .runPending, _ => H.migrations.length
  | .undoLast, n => n - 1
  | .write _ _, n => n

/-- How many migrations are executed after the commands. -/
def countAll (commands : List Command) : Nat :=
  commands.foldl (fun n c => H.count c n) 0

/-- The first `n` migrations are executed, the schema is theirs, and the rows
obey it. -/
structure Kept (n : Nat) (d : Deployment) : Prop where
  executed : d.executed = (H.migrations.take n).map Migration.name
  schema : execAll ((H.migrations.take n).flatMap Migration.up) {} =
    some d.database.schema
  integral : d.database.Integral

variable {H}

/-- The empty database is sound. -/
theorem sound_empty : Database.Sound {} := by decide

theorem integral_empty : Database.Integral {} := by decide

theorem kept_start : H.Kept 0 {} := ⟨rfl, rfl, integral_empty⟩

/-- The migrations that are not executed come after those that are. -/
theorem Kept.pending {n : Nat} {d : Deployment} (h : H.Kept n d) :
    H.pending d = H.migrations.drop n := by
  have hnames := H.names
  rw [← List.take_append_drop n H.migrations, List.map_append,
    List.nodup_append] at hnames
  rw [History.pending, h.executed]
  have hold : (H.migrations.take n).filter (fun m =>
      m.name ∉ (H.migrations.take n).map Migration.name) = [] := by
    apply List.filter_eq_nil_iff.2
    intro m hm hnew
    exact of_decide_eq_true hnew (List.mem_map_of_mem hm)
  have hnew : (H.migrations.drop n).filter (fun m =>
      m.name ∉ (H.migrations.take n).map Migration.name) =
      H.migrations.drop n := by
    apply List.filter_eq_self.2
    intro m hm
    rw [decide_eq_true_iff]
    exact fun hold => hnames.2.2 _ hold _ (List.mem_map_of_mem hm) rfl
  calc H.migrations.filter _
      = (H.migrations.take n ++ H.migrations.drop n).filter _ := by
        rw [List.take_append_drop]
    _ = H.migrations.drop n := by
        rw [List.filter_append, hold, hnew, List.nil_append]

theorem selfContained_up (ms : List Migration) :
    SelfContained [] (ms.flatMap Migration.up) = true := by
  induction ms with
  | nil => rfl
  | cons m rest ih =>
      rw [List.flatMap_cons]
      exact SelfContained.append m.selfContained ih

theorem run_kept {n : Nat} {d : Deployment} (h : H.Kept n d) :
    ∃ d', H.exec .runPending d = some d' ∧ H.Kept H.migrations.length d' := by
  obtain ⟨S, hS⟩ := Option.isSome_iff_exists.1 H.runs
  rw [← List.take_append_drop n H.migrations, List.flatMap_append,
    execAll_append, h.schema] at hS
  obtain ⟨D, hD, rfl⟩ :=
    execAll_of_schema (selfContained_up _) Database.EmptyAt.nil hS
  refine ⟨⟨D, d.executed ++ (H.pending d).map Migration.name⟩, ?_, ?_, ?_, ?_⟩
  · rw [exec, h.pending, hD]
    rfl
  · rw [h.pending, h.executed, ← List.map_append, List.take_append_drop,
      List.take_length]
  · rw [List.take_length]
    conv_lhs => rw [← List.take_append_drop n H.migrations,
      List.flatMap_append, execAll_append, h.schema]
    exact hS
  · exact execAll_integral h.integral hD

theorem find?_name {m : Migration} (hm : m ∈ H.migrations) :
    (H.migrations.find? fun m' => m'.name == m.name) = some m := by
  apply Common.find?_of_unique hm
  · exact beq_self_eq_true m.name
  · intro m' hm' hname
    exact List.inj_on_of_nodup_map H.names hm' hm (eq_of_beq hname)

/-- What is undone is what was executed last. -/
theorem exec_undoLast {m : Migration} (hm : m ∈ H.migrations)
    {executed : List String} (h : execAll m.down D = some D') :
    H.exec .undoLast ⟨D, executed ++ [m.name]⟩ = some ⟨D', executed⟩ := by
  rw [exec, List.getLast?_concat]
  simp only [find?_name hm, Option.bind_some, h, Option.map_some,
    List.dropLast_concat]

theorem undo_kept {n : Nat} {d : Deployment} (hn : n < H.migrations.length)
    (h : H.Kept (n + 1) d) :
    ∃ d', H.exec .undoLast d = some d' ∧ H.Kept n d' := by
  have htake := List.take_append_getElem hn
  have hexecuted := h.executed
  have hschema := h.schema
  rw [← htake, List.map_append] at hexecuted
  rw [← htake, List.flatMap_append, execAll_append] at hschema
  obtain ⟨S, hS, hup⟩ := Option.bind_eq_some_iff.1 hschema
  rw [List.flatMap_singleton] at hup
  have hdown := undo_script H.migrations[n].undoes
    (execAll_sound sound_empty hS) hup
  obtain ⟨D, hD, rfl⟩ := execAll_of_schema
    (SelfContained.of_undoes H.migrations[n].undoes) Database.EmptyAt.nil hdown
  refine ⟨⟨D, (H.migrations.take n).map Migration.name⟩, ?_, rfl, hS,
    execAll_integral h.integral hD⟩
  have hundo : H.exec .undoLast ⟨d.database,
      (H.migrations.take n).map Migration.name ++ [H.migrations[n].name]⟩ =
      some ⟨D, (H.migrations.take n).map Migration.name⟩ :=
    exec_undoLast (List.getElem_mem hn) hD
  have hd : d = ⟨d.database, (H.migrations.take n).map Migration.name ++
      [H.migrations[n].name]⟩ := by
    rw [← List.map_singleton, ← hexecuted]
  rw [hd]
  exact hundo

/-- Writing is no business of the migrations. -/
theorem write_kept {n : Nat} {d : Deployment} {s : Statement}
    (hs : s.isWrite = true) (h : H.Kept n d) :
    H.Kept n { d with database := (s.exec d.database).getD d.database } := by
  cases hD : s.exec d.database with
  | none => exact h
  | some D =>
      obtain ⟨hschema, hintegral⟩ := exec_write hs hD
      refine ⟨h.executed, ?_, hintegral⟩
      rw [h.schema, Option.getD_some, hschema]

theorem exec_kept {n : Nat} {d : Deployment} (c : Command)
    (hn : n ≤ H.migrations.length) (h : H.Kept n d) :
    ∃ d', H.exec c d = some d' ∧ H.Kept (H.count c n) d' := by
  cases c with
  | runPending => exact run_kept h
  | undoLast =>
      cases n with
      | zero =>
          refine ⟨d, ?_, h⟩
          rw [exec, h.executed]
          rfl
      | succ n => exact undo_kept hn h
  | write s hs => exact ⟨_, rfl, write_kept hs h⟩

theorem count_le {n : Nat} (c : Command) (hn : n ≤ H.migrations.length) :
    H.count c n ≤ H.migrations.length := by
  cases c with
  | runPending => exact Nat.le_refl _
  | undoLast => exact Nat.le_trans (Nat.sub_le n 1) hn
  | write _ _ => exact hn

theorem run_all_kept (commands : List Command) {n : Nat} {d : Deployment}
    (hn : n ≤ H.migrations.length) (h : H.Kept n d) :
    ∃ d', H.run commands d = some d' ∧
      H.Kept (commands.foldl (fun n c => H.count c n) n) d' := by
  induction commands generalizing n d with
  | nil => exact ⟨d, rfl, h⟩
  | cons c rest ih =>
      obtain ⟨d₁, hd₁, hkept⟩ := exec_kept c hn h
      obtain ⟨d', hd', hrest⟩ := ih (count_le c hn) hkept
      exact ⟨d', Option.bind_eq_some_iff.2 ⟨d₁, hd₁, hd'⟩, hrest⟩

/-- Whatever the commands and the rows written in between, no command fails. -/
theorem deploy_kept (commands : List Command) :
    ∃ d, H.deploy commands = some d ∧ H.Kept (H.countAll commands) d :=
  run_all_kept commands (Nat.zero_le _) kept_start

/-! ## Undoing a run -/

theorem Kept.sound {n : Nat} {d : Deployment} (h : H.Kept n d) :
    d.database.Sound :=
  Database.sound_schema.1 (execAll_sound sound_empty h.schema)

/-- Migrations are undone one by one, the last one first. -/
theorem undo_all {ms : List Migration} (hms : ms ⊆ H.migrations)
    (executed : List String) (hs : D.Sound)
    (h : execAll (ms.flatMap Migration.up) D = some D') :
    H.run (List.replicate ms.length .undoLast)
      ⟨D', executed ++ ms.map Migration.name⟩ = some ⟨D, executed⟩ := by
  induction ms using List.reverseRecOn generalizing D' with
  | nil =>
      cases h
      rw [List.map_nil, List.append_nil]
      rfl
  | append_singleton rest m ih =>
      rw [List.flatMap_append, execAll_append, List.flatMap_singleton] at h
      obtain ⟨D₁, hrest, hup⟩ := Option.bind_eq_some_iff.1 h
      have hm : m ∈ H.migrations :=
        hms (List.mem_append_right _ (List.mem_singleton_self m))
      have hdown := undo_script m.undoes (execAll_sound hs hrest) hup
      rw [List.length_append, List.length_singleton, List.replicate_succ,
        List.map_append, List.map_singleton, ← List.append_assoc, run_cons,
        exec_undoLast hm hdown, Option.bind_some]
      exact ih (fun x hx => hms (List.mem_append_left _ hx)) hrest

/-- A run that is undone again has never been, for no row and no table. -/
theorem deploy_undone (commands : List Command) :
    H.deploy (commands ++ .runPending :: List.replicate
      (H.migrations.length - H.countAll commands) .undoLast) =
      H.deploy commands := by
  obtain ⟨d, hd, hkept⟩ := H.deploy_kept commands
  obtain ⟨d', hd', _⟩ := run_kept hkept
  obtain ⟨D, hD, hrun⟩ := Option.map_eq_some_iff.1 hd'
  rw [hkept.pending] at hD hrun
  have hundo := undo_all (List.drop_subset _ _) d.executed hkept.sound hD
  rw [List.length_drop, hrun] at hundo
  rw [deploy, run_append, ← deploy, hd, Option.bind_some, run_cons, hd',
    Option.bind_some]
  exact hundo

end History

end Videum.Relational
