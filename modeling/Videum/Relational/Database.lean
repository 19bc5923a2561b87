import Mathlib.Data.List.Basic
import Mathlib.Data.List.Nodup

/-!
# A relational database

Tables with typed columns and constraints, the statements that define them,
and the statements that write their rows, as PostgreSQL does them.  A
statement is done as a whole or refused.  Dropping is always `RESTRICT`: it is
refused while something that stays depends on what is dropped.  Limits of the
storage, such as the size of an index entry, are left out.

## Main definitions

* `Database.Sound` — everything a definition refers to is there.
* `Database.Integral` — the rows obey the definitions.
* `Statement.exec` — what a statement makes of a database.
-/

namespace Videum.Relational

/-! ## Values and rows -/

/-- A time is in milliseconds, a UUID in the text that it is read back as. -/
inductive Value
  | null
  | uuid (text : String)
  | text (s : String)
  | bool (b : Bool)
  | int (n : Int)
  | time (t : Int)
  deriving DecidableEq, Repr

def isHexDigit (c : Char) : Bool :=
  ('0' ≤ c && c ≤ '9') || ('a' ≤ c && c ≤ 'f')

/-- Groups of eight, four, four, four and twelve digits. -/
def isUuid (text : String) : Bool :=
  text.toList.length == 36 && text.toList.zipIdx.all fun x =>
    if x.2 ∈ [8, 13, 18, 23] then x.1 == '-' else isHexDigit x.1

/-- No text has a character `U+0000`. -/
def isText (s : String) : Bool := s.toList.all fun c => c.toNat != 0

/-- From 4713 BC to 294276 AD. -/
def isTimestamp (t : Int) : Bool :=
  -210866803200000 ≤ t && t < 9224318016000000

/-- There is such a value. -/
def Value.isValid : Value → Bool
  | .null => true
  | .uuid u => isUuid u
  | .text s => isText s
  | .bool _ => true
  | .int n => -9223372036854775808 ≤ n && n < 9223372036854775808
  | .time t => isTimestamp t

/-- Column names with their values. -/
abbrev Row := List (String × Value)

/-- The value of a column; a column that is not there reads as `NULL`. -/
def Row.get (r : Row) (column : String) : Value :=
  (r.lookup column).getD .null

/-- The rows agree on these columns; `NULL` agrees with nothing. -/
def Row.SameKey (columns : List String) (r r' : Row) : Prop :=
  ∀ column ∈ columns, r.get column ≠ .null ∧ r.get column = r'.get column

instance (columns : List String) (r r' : Row) :
    Decidable (r.SameKey columns r') :=
  inferInstanceAs (Decidable (∀ column ∈ columns, _))

/-! ## Definitions of tables -/

inductive ColumnType
  | uuid
  | text
  /-- `character varying`, with or without a length -/
  | varchar (limit : Option Nat)
  | boolean
  | integer
  | bigint
  | timestamp
  | enum (name : String)
  deriving DecidableEq, Repr

/-- What a `DEFAULT` clause says. -/
inductive Default
  | uuidGenerateV4
  | now
  | value (v : Value)
  deriving DecidableEq, Repr

/-- The enumerated type a column refers to. -/
def ColumnType.enum? : ColumnType → Option String
  | .enum name => some name
  | _ => none

/-- What is stored of a value: blanks beyond the length of a
`character varying` are cut off. -/
def ColumnType.stored : ColumnType → Value → Value
  | .varchar (some limit), .text s =>
      if (s.toList.drop limit).all (· == ' ') then
        .text (String.ofList (s.toList.take limit))
      else .text s
  | _, v => v

structure Column where
  name : String
  type : ColumnType
  notNull : Bool
  default : Option Default
  deriving DecidableEq, Repr

/-- Foreign keys are `NO ACTION` on deletion and on update. -/
inductive Rule
  | primaryKey (columns : List String)
  | unique (columns : List String)
  | foreignKey (column refTable refColumn : String)
  deriving DecidableEq, Repr

structure Constraint where
  name : String
  rule : Rule
  deriving DecidableEq, Repr

structure TableDef where
  name : String
  columns : List Column
  constraints : List Constraint
  deriving DecidableEq, Repr

structure Table extends TableDef where
  rows : List Row := []
  deriving DecidableEq, Repr

structure Index where
  name : String
  table : String
  columns : List String
  deriving DecidableEq, Repr

structure EnumType where
  name : String
  labels : List String
  deriving DecidableEq, Repr

structure Database where
  types : List EnumType := []
  tables : List Table := []
  indexes : List Index := []
  deriving DecidableEq, Repr

/-- The columns whose values identify a row. -/
def Rule.key? : Rule → Option (List String)
  | .primaryKey columns | .unique columns => some columns
  | .foreignKey _ _ _ => none

def Rule.primaryKey? : Rule → Option (List String)
  | .primaryKey columns => some columns
  | _ => none

/-- A key has an index under the name of its constraint. -/
def Constraint.index? (c : Constraint) : Option String :=
  c.rule.key?.map fun _ => c.name

def TableDef.columnNames (t : TableDef) : List String :=
  t.columns.map Column.name

def TableDef.indexNames (t : TableDef) : List String :=
  t.constraints.filterMap Constraint.index?

/-- The constraints without the unique ones whose columns are those of a key
that is `taken` or of a unique constraint before. -/
def distinctKeys (taken : List (List String)) :
    List Constraint → List Constraint
  | [] => []
  | c :: rest =>
      match c.rule with
      | .unique columns =>
          if columns ∈ taken then distinctKeys taken rest
          else c :: distinctKeys (columns :: taken) rest
      | _ => c :: distinctKeys taken rest

/-- The table that `CREATE TABLE` makes: one index is enough for the same
columns, and the primary key has precedence. -/
def TableDef.created (t : TableDef) : TableDef :=
  { t with
    constraints :=
      distinctKeys (t.constraints.filterMap fun c => c.rule.primaryKey?)
        t.constraints }

@[simp] theorem TableDef.created_name (t : TableDef) :
    t.created.name = t.name := rfl

@[simp] theorem TableDef.created_columns (t : TableDef) :
    t.created.columns = t.columns := rfl

namespace Database

variable (D : Database)

def tableNames : List String := D.tables.map fun t => t.name

/-- Tables and indexes share their names. -/
def relationNames : List String :=
  D.tableNames ++ D.indexes.map Index.name ++
    D.tables.flatMap fun t => t.indexNames

/-- Every table is a type, too. -/
def typeNames : List String := D.types.map EnumType.name ++ D.tableNames

/-! ## Soundness -/

/-- The type is there. -/
def Knows (type : ColumnType) : Prop :=
  ∀ name ∈ type.enum?, name ∈ D.types.map EnumType.name

instance (type : ColumnType) : Decidable (D.Knows type) :=
  inferInstanceAs (Decidable (∀ name ∈ type.enum?, _))

/-- The columns of a rule are there, and a foreign key refers to a key. -/
def Grounds (t : TableDef) : Rule → Prop
  | .primaryKey columns | .unique columns => columns ⊆ t.columnNames
  | .foreignKey column refTable refColumn => column ∈ t.columnNames ∧
      ∃ u ∈ D.tables, u.name = refTable ∧
        ∃ c ∈ u.constraints, c.rule.key? = some [refColumn]

instance (t : TableDef) : (rule : Rule) → Decidable (D.Grounds t rule)
  | .primaryKey columns | .unique columns =>
      inferInstanceAs (Decidable (columns ⊆ t.columnNames))
  | .foreignKey _ _ _ => inferInstanceAs (Decidable (_ ∧ _))

/-- All that the definitions refer to is there. -/
structure Sound : Prop where
  types : ∀ t ∈ D.tables, ∀ c ∈ t.columns, D.Knows c.type
  rules : ∀ t ∈ D.tables, ∀ c ∈ t.constraints, D.Grounds t.toTableDef c.rule
  indexes : ∀ i ∈ D.indexes, ∃ t ∈ D.tables, t.name = i.table ∧
    i.columns ⊆ t.columnNames

instance : Decidable D.Sound :=
  decidable_of_iff ((∀ t ∈ D.tables, ∀ c ∈ t.columns, D.Knows c.type) ∧
      (∀ t ∈ D.tables, ∀ c ∈ t.constraints, D.Grounds t.toTableDef c.rule) ∧
      ∀ i ∈ D.indexes, ∃ t ∈ D.tables, t.name = i.table ∧
        i.columns ⊆ t.columnNames)
    ⟨fun h => ⟨h.1, h.2.1, h.2.2⟩, fun h => ⟨h.types, h.rules, h.indexes⟩⟩

/-! ## Integrity -/

/-- The column may hold the value. -/
def accepts : ColumnType → Value → Bool
  | _, .null => true
  | .uuid, .uuid text => isUuid text
  | .text, .text s => isText s
  | .varchar none, .text s => isText s
  | .varchar (some limit), .text s => isText s && s.length ≤ limit
  | .boolean, .bool _ => true
  | .integer, .int n => -2147483648 ≤ n ∧ n < 2147483648
  | .bigint, .int n => -9223372036854775808 ≤ n ∧ n < 9223372036854775808
  | .timestamp, .time t => isTimestamp t
  | .enum name, .text s =>
      D.types.any fun e => e.name == name && e.labels.contains s
  | _, _ => false

/-- The row has a value for each column, and the column may hold it. -/
structure Fits (t : TableDef) (r : Row) : Prop where
  names : r.map Prod.fst = t.columnNames
  values : ∀ c ∈ t.columns, D.accepts c.type (r.get c.name) = true
  notNull : ∀ c ∈ t.columns, c.notNull = true → r.get c.name ≠ .null

instance (t : TableDef) (r : Row) : Decidable (D.Fits t r) :=
  decidable_of_iff (r.map Prod.fst = t.columnNames ∧
      (∀ c ∈ t.columns, D.accepts c.type (r.get c.name) = true) ∧
      ∀ c ∈ t.columns, c.notNull = true → r.get c.name ≠ .null)
    ⟨fun h => ⟨h.1, h.2.1, h.2.2⟩, fun h => ⟨h.names, h.values, h.notNull⟩⟩

/-- Some row of the table has the value; `NULL` refers to nothing. -/
def Refers (refTable refColumn : String) (v : Value) : Prop :=
  v = .null ∨ ∃ u ∈ D.tables, u.name = refTable ∧
    ∃ r ∈ u.rows, r.get refColumn = v

instance (refTable refColumn : String) (v : Value) :
    Decidable (D.Refers refTable refColumn v) :=
  inferInstanceAs (Decidable (_ ∨ _))

/-- The rows of the table obey the rule. -/
def Satisfies (t : Table) : Rule → Prop
  | .primaryKey columns | .unique columns =>
      t.rows.Pairwise fun r r' => ¬ r.SameKey columns r'
  | .foreignKey column refTable refColumn =>
      ∀ r ∈ t.rows, D.Refers refTable refColumn (r.get column)

instance (t : Table) : (rule : Rule) → Decidable (D.Satisfies t rule)
  | .primaryKey _ | .unique _ => inferInstanceAs (Decidable (List.Pairwise _ _))
  | .foreignKey _ _ _ => inferInstanceAs (Decidable (∀ r ∈ t.rows, _))

/-- Every row fits its table, and every rule is obeyed. -/
structure Integral : Prop where
  fits : ∀ t ∈ D.tables, ∀ r ∈ t.rows, D.Fits t.toTableDef r
  rules : ∀ t ∈ D.tables, ∀ c ∈ t.constraints, D.Satisfies t c.rule

instance : Decidable D.Integral :=
  decidable_of_iff ((∀ t ∈ D.tables, ∀ r ∈ t.rows, D.Fits t.toTableDef r) ∧
      ∀ t ∈ D.tables, ∀ c ∈ t.constraints, D.Satisfies t c.rule)
    ⟨fun h => ⟨h.1, h.2⟩, fun h => ⟨h.fits, h.rules⟩⟩

end Database

/-! ## Statements -/

inductive Statement
  | createType (name : String) (labels : List String)
  | dropType (name : String)
  | createTable (t : TableDef)
  | dropTable (name : String)
  | createIndex (i : Index)
  | dropIndex (name : String)
  | addConstraint (table : String) (c : Constraint)
  | dropConstraint (table name : String)
  /-- `generated` and `now` are what the default functions return -/
  | insert (table : String) (given : Row) (generated : String) (now : Int)
  | update (table : String) (set : Row) (condition : Row → Bool)
  | delete (table : String) (condition : Row → Bool)

/-- What a column gets when these are given, or its default. -/
def Column.value (given : Row) (generated : String) (now : Int) (c : Column) :
    Value :=
  (given.lookup c.name).getD
    (match c.default with
    | some .uuidGenerateV4 => .uuid generated
    | some .now => .time now
    | some (.value v) => v
    | none => .null)

/-- The row inserted when these columns are given. -/
def TableDef.newRow (t : TableDef) (given : Row) (generated : String)
    (now : Int) : Row :=
  t.columns.map fun c => (c.name, c.type.stored (c.value given generated now))

/-- The row with these columns set. -/
def TableDef.assign (t : TableDef) (set r : Row) : Row :=
  t.columns.map fun c => (c.name,
    ((set.lookup c.name).map c.type.stored).getD (r.get c.name))

namespace Database

variable (D : Database)

def onTable (name : String) (f : Table → Table) : Database :=
  { D with tables := D.tables.map fun t => if t.name = name then f t else t }

/-- The database, unless something is missing in it. -/
def settled : Option Database := if D.Sound then some D else none

/-- The database, unless a row breaks a rule. -/
def checked : Option Database := if D.Integral then some D else none

/-- A name that tables, indexes and keys may get. -/
def FreshNames (names : List String) : Prop :=
  names.Nodup ∧ ∀ name ∈ names, name ∉ D.relationNames

instance (names : List String) : Decidable (D.FreshNames names) :=
  inferInstanceAs (Decidable (_ ∧ _))

end Database

open Database in
/-- The database after a statement; `none` when it is refused. -/
def Statement.exec : Statement → Database → Option Database
  | .createType name labels, D =>
      if name ∉ D.typeNames then
        settled { D with types := D.types ++ [⟨name, labels⟩] }
      else none
  | .dropType name, D =>
      if name ∈ D.types.map EnumType.name then
        settled { D with types := D.types.filter fun e => e.name ≠ name }
      else none
  | .createTable t, D =>
      if D.FreshNames (t.name :: t.created.indexNames) ∧
          t.name ∉ D.typeNames ∧ t.columnNames.Nodup ∧
          (t.created.constraints.map Constraint.name).Nodup then
        settled { D with tables := D.tables ++ [⟨t.created, []⟩] }
      else none
  | .dropTable name, D =>
      if name ∈ D.tableNames then
        settled { D with
          tables := D.tables.filter fun t => t.name ≠ name
          indexes := D.indexes.filter fun i => i.table ≠ name }
      else none
  | .createIndex i, D =>
      if D.FreshNames [i.name] then
        settled { D with indexes := D.indexes ++ [i] }
      else none
  | .dropIndex name, D =>
      if name ∈ D.indexes.map Index.name then
        settled { D with indexes := D.indexes.filter fun i => i.name ≠ name }
      else none
  | .addConstraint table c, D =>
      let D' := D.onTable table fun t =>
        { t with constraints := t.constraints ++ [c] }
      if table ∈ D.tableNames ∧
          (∀ t ∈ D.tables, t.name = table →
            c.name ∉ t.constraints.map Constraint.name) ∧
          D.FreshNames c.index?.toList ∧
          (∀ t ∈ D'.tables, t.name = table → D'.Satisfies t c.rule) then
        settled D'
      else none
  | .dropConstraint table name, D =>
      if ∃ t ∈ D.tables, t.name = table ∧
          name ∈ t.constraints.map Constraint.name then
        settled (D.onTable table fun t =>
          { t with constraints :=
              t.constraints.filter fun c => c.name ≠ name })
      else none
  | .insert table given generated now, D =>
      if ∃ t ∈ D.tables, t.name = table ∧
          given.map Prod.fst ⊆ t.columnNames then
        checked (D.onTable table fun t =>
          { t with rows := t.rows ++ [t.newRow given generated now] })
      else none
  | .update table set condition, D =>
      if ∃ t ∈ D.tables, t.name = table ∧
          set.map Prod.fst ⊆ t.columnNames then
        checked (D.onTable table fun t =>
          { t with rows := t.rows.map fun r =>
              if condition r then t.assign set r else r })
      else none
  | .delete table condition, D =>
      if table ∈ D.tableNames then
        checked (D.onTable table fun t =>
          { t with rows := t.rows.filter fun r => !condition r })
      else none

/-- The database after the statements, all of them or none. -/
def execAll (script : List Statement) (D : Database) : Option Database :=
  script.foldlM (fun D s => s.exec D) D

end Videum.Relational
