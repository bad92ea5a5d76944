import PaymentService.Table.Keyed

/-!
# Schemas and the statements that change them

A database is a schema together with rows. A row has a cell for every name; a cell is empty when it
is NULL, or when the table has no such column. A statement changes the schema, or is refused because
the schema does not have what it names; on top of that the rows may refuse it, and two statements
discard what is in the rows. These three things are kept apart (`Schema.exec`, `Admits`,
`rowsAfter`), since a sequence of statements goes through on every content that it goes through on
at all, except for what `Admits` asks of the rows.

`Legal` is what a schema promises about the rows. No statement breaks it: `legal_exec`.
-/

namespace Sql

variable {T V : Type}

/-! ## Schemas -/

structure Column (T : Type) where
  name : String
  type : T
  notNull : Bool
  /-- The expression after `DEFAULT`. -/
  default : Option String := none
  deriving DecidableEq

inductive Constraint
  | primaryKey (name column : String)
  /-- `column` has values that `referenced` has in the table `references`. -/
  | foreignKey (name column references referenced : String)
  deriving DecidableEq

structure Table (T : Type) where
  name : String
  columns : List (Column T)
  constraints : List Constraint
  deriving DecidableEq

structure Index where
  name : String
  table : String
  column : String
  unique : Bool
  deriving DecidableEq

structure Schema (T : Type) where
  tables : List (Table T)
  indexes : List Index
  deriving DecidableEq

namespace Constraint

def name : Constraint → String
  | primaryKey name _ => name
  | foreignKey name _ _ _ => name

def column : Constraint → String
  | primaryKey _ column => column
  | foreignKey _ column _ _ => column

/-- The constraint needs a column of a table to be there. -/
def RefersTo (table column : String) : Constraint → Prop
  | primaryKey _ _ => False
  | foreignKey _ _ references referenced => references = table ∧ referenced = column

def RefersToTable (table : String) : Constraint → Prop
  | primaryKey _ _ => False
  | foreignKey _ _ references _ => references = table

def IsPrimaryKeyOf (column : String) : Constraint → Prop
  | primaryKey _ keyed => keyed = column
  | foreignKey _ _ _ _ => False

instance (table column : String) : DecidablePred (RefersTo table column)
  | primaryKey _ _ => inferInstanceAs (Decidable False)
  | foreignKey _ _ references referenced =>
    inferInstanceAs (Decidable (references = table ∧ referenced = column))

instance (table : String) : DecidablePred (RefersToTable table)
  | primaryKey _ _ => inferInstanceAs (Decidable False)
  | foreignKey _ _ references _ => inferInstanceAs (Decidable (references = table))

instance (column : String) : DecidablePred (IsPrimaryKeyOf column)
  | primaryKey _ keyed => inferInstanceAs (Decidable (keyed = column))
  | foreignKey _ _ _ _ => inferInstanceAs (Decidable False)

end Constraint

def Table.column? (table : Table T) (name : String) : Option (Column T) :=
  Keyed.find Column.name name table.columns

namespace Schema

def empty : Schema T := ⟨[], []⟩

def table? (schema : Schema T) (name : String) : Option (Table T) :=
  Keyed.find Table.name name schema.tables

/-- Put a table in the place of the one with its name. -/
def setTable (schema : Schema T) (table : Table T) : Schema T :=
  { schema with tables := Keyed.replace Table.name table.name table schema.tables }

/-- What a constraint needs to be there before it can be added to a table. -/
def Supports (schema : Schema T) (table : Table T) : Constraint → Prop
  | .primaryKey _ column =>
    (table.column? column).isSome ∧ ∀ c ∈ table.constraints, ∀ d ∈ table.columns,
      ¬c.IsPrimaryKeyOf d.name
  | .foreignKey _ column references referenced =>
    (table.column? column).isSome ∧ ∃ other ∈ schema.tables, other.name = references ∧
      ∃ c ∈ other.constraints, c.IsPrimaryKeyOf referenced

instance (schema : Schema T) (table : Table T) : DecidablePred (schema.Supports table)
  | .primaryKey _ column => inferInstanceAs (Decidable ((table.column? column).isSome ∧
      ∀ c ∈ table.constraints, ∀ d ∈ table.columns, ¬c.IsPrimaryKeyOf d.name))
  | .foreignKey _ column references referenced => inferInstanceAs
      (Decidable ((table.column? column).isSome ∧ ∃ other ∈ schema.tables,
        other.name = references ∧ ∃ c ∈ other.constraints, c.IsPrimaryKeyOf referenced))

end Schema

/-! ## Statements -/

inductive Statement (T : Type)
  | createTable (table : Table T)
  | dropTable (name : String)
  | addConstraint (table : String) (constraint : Constraint)
  | dropConstraint (table name : String)
  | createIndex (index : Index)
  | dropIndex (name : String)
  /-- `ADD` without a default. -/
  | addColumn (table name : String) (type : T) (notNull : Bool)
  | dropColumn (table name : String)
  | setNotNull (table name : String)
  | dropNotNull (table name : String)
  deriving DecidableEq

/-- What a statement does to the schema; it fails when it names what is not there, what is there
already, or what something else still needs. -/
def Schema.exec (schema : Schema T) : Statement T → Option (Schema T)
  | .createTable table =>
    if schema.table? table.name = none ∧ (table.columns.map Column.name).Nodup then
      some { schema with tables := schema.tables ++ [table] }
    else none
  | .dropTable name => do
    let _ ← schema.table? name
    if ∀ other ∈ schema.tables, other.name ≠ name → ∀ c ∈ other.constraints,
        ¬c.RefersToTable name then
      some { tables := schema.tables.filter fun other ↦ other.name ≠ name
             indexes := schema.indexes.filter fun index ↦ index.table ≠ name }
    else none
  | .addConstraint name c => do
    let table ← schema.table? name
    if (∀ d ∈ table.constraints, d.name ≠ c.name) ∧ schema.Supports table c then
      some (schema.setTable { table with constraints := table.constraints ++ [c] })
    else none
  | .dropConstraint name constraint => do
    let table ← schema.table? name
    let c ← Keyed.find Constraint.name constraint table.constraints
    if ∀ other ∈ schema.tables, ∀ d ∈ other.constraints, c.IsPrimaryKeyOf c.column →
        ¬d.RefersTo name c.column then
      some (schema.setTable { table with
        constraints := table.constraints.filter fun d ↦ d.name ≠ constraint })
    else none
  | .createIndex index => do
    let table ← schema.table? index.table
    let _ ← table.column? index.column
    if ∀ other ∈ schema.indexes, other.name ≠ index.name then
      some { schema with indexes := schema.indexes ++ [index] }
    else none
  | .dropIndex name =>
    if ∃ index ∈ schema.indexes, index.name = name then
      some { schema with indexes := schema.indexes.filter fun index ↦ index.name ≠ name }
    else none
  | .addColumn name column type notNull => do
    let table ← schema.table? name
    if table.column? column = none then
      some (schema.setTable { table with columns := table.columns ++ [⟨column, type, notNull, none⟩] })
    else none
  | .dropColumn name column => do
    let table ← schema.table? name
    let _ ← table.column? column
    if ∀ other ∈ schema.tables, ∀ c ∈ other.constraints, ¬c.RefersTo name column then
      -- The constraints and the indexes of the column go with it.
      some { schema.setTable { table with
              columns := table.columns.filter fun c ↦ c.name ≠ column
              constraints := table.constraints.filter fun c ↦ c.column ≠ column } with
             indexes := schema.indexes.filter fun index ↦ ¬(index.table = name ∧ index.column = column) }
    else none
  | .setNotNull name column => do
    let table ← schema.table? name
    let c ← table.column? column
    some (schema.setTable { table with
      columns := Keyed.replace Column.name column { c with notNull := true } table.columns })
  | .dropNotNull name column => do
    let table ← schema.table? name
    let c ← table.column? column
    if ∀ d ∈ table.constraints, ¬d.IsPrimaryKeyOf column then
      some (schema.setTable { table with
        columns := Keyed.replace Column.name column { c with notNull := false } table.columns })
    else none

/-! ## Rows -/

/-- The cells of a row by the names of their columns. -/
abbrev Row (V : Type) : Type := String → Option V

structure Database (T V : Type) where
  schema : Schema T
  /-- The rows of each table. -/
  rows : String → List (Row V)

/-- No value stands in two rows; NULL may. -/
def Distinct (column : String) (rows : List (Row V)) : Prop :=
  (rows.filterMap fun row ↦ row column).Nodup

instance [DecidableEq V] (column : String) (rows : List (Row V)) :
    Decidable (Distinct column rows) :=
  inferInstanceAs (Decidable (rows.filterMap fun row ↦ row column).Nodup)

/-- The rows meet a constraint of a table. -/
def Constraint.Holds (rows : String → List (Row V)) (table : String) : Constraint → Prop
  | primaryKey _ column =>
    (∀ row ∈ rows table, row column ≠ none) ∧ Distinct column (rows table)
  | foreignKey _ column references referenced =>
    ∀ value ∈ (rows table).filterMap fun row ↦ row column,
      value ∈ (rows references).filterMap fun row ↦ row referenced

instance [DecidableEq V] (rows : String → List (Row V)) (table : String) :
    DecidablePred (Constraint.Holds rows table)
  | .primaryKey _ column => inferInstanceAs
      (Decidable ((∀ row ∈ rows table, row column ≠ none) ∧ Distinct column (rows table)))
  | .foreignKey _ column references referenced => inferInstanceAs
      (Decidable (∀ value ∈ (rows table).filterMap fun row ↦ row column,
        value ∈ (rows references).filterMap fun row ↦ row referenced))

namespace Database

/-- What a statement asks of the rows. -/
def Admits (rows : String → List (Row V)) : Statement T → Prop
  | .addConstraint table c => c.Holds rows table
  | .createIndex index => index.unique = true → Distinct index.column (rows index.table)
  | .addColumn table _ _ notNull => notNull = true → rows table = []
  | .setNotNull table column => ∀ row ∈ rows table, row column ≠ none
  | _ => True

instance [DecidableEq V] (rows : String → List (Row V)) :
    DecidablePred (Admits (T := T) rows)
  | .createTable _ => isTrue trivial
  | .dropTable _ => isTrue trivial
  | .addConstraint table c => inferInstanceAs (Decidable (c.Holds rows table))
  | .dropConstraint _ _ => isTrue trivial
  | .createIndex index => inferInstanceAs
      (Decidable (index.unique = true → Distinct index.column (rows index.table)))
  | .dropIndex _ => isTrue trivial
  | .addColumn table _ _ notNull => decidable_of_iff
      (notNull = true → (rows table).isEmpty = true) (imp_congr_right fun _ ↦ List.isEmpty_iff)
  | .dropColumn _ _ => isTrue trivial
  | .setNotNull table column => inferInstanceAs
      (Decidable (∀ row ∈ rows table, row column ≠ none))
  | .dropNotNull _ _ => isTrue trivial

/-- The rows after a statement. The cells of a new column are empty, as they are where there is no
column; the cells of a column that is dropped are discarded. -/
def rowsAfter (rows : String → List (Row V)) : Statement T → String → List (Row V)
  | .dropTable name => Function.update rows name []
  | .dropColumn name column =>
    Function.update rows name ((rows name).map fun row ↦ Function.update row column none)
  | _ => rows

/-- What a sequence of statements asks of the rows. -/
def AdmitsAll (rows : String → List (Row V)) : List (Statement T) → Prop
  | [] => True
  | statement :: statements =>
    Admits rows statement ∧ AdmitsAll (rowsAfter rows statement) statements

def rowsAfterAll (rows : String → List (Row V)) (statements : List (Statement T)) :
    String → List (Row V) := statements.foldl rowsAfter rows

section Exec

variable [DecidableEq V]

def exec (db : Database T V) (statement : Statement T) : Option (Database T V) := do
  let schema ← db.schema.exec statement
  if Admits db.rows statement then some ⟨schema, rowsAfter db.rows statement⟩ else none

/-- The statements of a transaction: all of them, or none. -/
def execAll (db : Database T V) (statements : List (Statement T)) :
    Option (Database T V) := statements.foldlM exec db

end Exec

end Database

def Schema.execAll (schema : Schema T) (statements : List (Statement T)) :
    Option (Schema T) := statements.foldlM Schema.exec schema

theorem Schema.execAll_cons (schema : Schema T) (statement : Statement T)
    (statements : List (Statement T)) : schema.execAll (statement :: statements) =
      (schema.exec statement).bind fun schema ↦ schema.execAll statements := List.foldlM_cons

theorem Schema.execAll_append (schema : Schema T) (statements statements' : List (Statement T)) :
    schema.execAll (statements ++ statements') =
      (schema.execAll statements).bind fun schema ↦ schema.execAll statements' :=
  List.foldlM_append

namespace Database

section Exec

variable [DecidableEq V] {db db' : Database T V} {statement : Statement T}
  {statements : List (Statement T)}

theorem exec_eq_some_iff : db.exec statement = some db' ↔
    db.schema.exec statement = some db'.schema ∧ Admits db.rows statement ∧
      db'.rows = rowsAfter db.rows statement := by
  rw [exec]
  rcases db.schema.exec statement with _ | schema
  · simp
  · by_cases hadmits : Admits db.rows statement
    · constructor
      · intro h
        simp only [Option.bind_eq_bind, Option.bind_some, if_pos hadmits] at h
        obtain rfl := Option.some_inj.mp h
        exact ⟨rfl, hadmits, rfl⟩
      · rintro ⟨hschema, -, hrows⟩
        obtain rfl := Option.some_inj.mp hschema
        simp only [Option.bind_eq_bind, Option.bind_some, if_pos hadmits]
        rw [← hrows]
    · simp [hadmits]

theorem execAll_cons_eq_some_iff : db.execAll (statement :: statements) = some db' ↔
    ∃ db₁, db.exec statement = some db₁ ∧ db₁.execAll statements = some db' := by
  rw [execAll, List.foldlM_cons, Option.bind_eq_bind, Option.bind_eq_some_iff]
  rfl

theorem execAll_eq_some_iff : db.execAll statements = some db' ↔
    db.schema.execAll statements = some db'.schema ∧ AdmitsAll db.rows statements ∧
      db'.rows = rowsAfterAll db.rows statements := by
  induction statements generalizing db with
  | nil =>
    constructor
    · intro h
      obtain rfl := Option.some_inj.mp h
      exact ⟨rfl, trivial, rfl⟩
    · rintro ⟨hschema, -, hrows⟩
      have hschema : db.schema = db'.schema := Option.some_inj.mp hschema
      have hrows : db'.rows = db.rows := hrows
      cases db
      cases db'
      simp only at hschema hrows
      rw [hschema, hrows]
      rfl
  | cons statement statements ih =>
    rw [execAll_cons_eq_some_iff, Schema.execAll_cons, Option.bind_eq_some_iff]
    constructor
    · rintro ⟨db₁, hfirst, hrest⟩
      obtain ⟨hschema, hadmits, hrows⟩ := exec_eq_some_iff.mp hfirst
      obtain ⟨hschema', hadmits', hrows'⟩ := ih.mp hrest
      rw [hrows] at hadmits' hrows'
      exact ⟨⟨_, hschema, hschema'⟩, ⟨hadmits, hadmits'⟩, hrows'⟩
    · rintro ⟨⟨schema, hschema, hschema'⟩, ⟨hadmits, hadmits'⟩, hrows⟩
      exact ⟨⟨schema, rowsAfter db.rows statement⟩,
        exec_eq_some_iff.mpr ⟨hschema, hadmits, rfl⟩, ih.mpr ⟨hschema', hadmits', hrows⟩⟩

end Exec

/-! ## What the rows let through -/

section Rows

variable {rows : String → List (Row V)}

theorem admits_of_empty (h : ∀ name, rows name = []) (statement : Statement T) :
    Admits rows statement := by
  have hdistinct : ∀ name column, Distinct column (rows name) := by
    intro name column
    rw [h name]
    exact List.nodup_nil
  cases statement with
  | addConstraint table c =>
    cases c with
    | primaryKey name column =>
      refine ⟨fun row hrow ↦ ?_, hdistinct table column⟩
      rw [h table] at hrow
      cases hrow
    | foreignKey name column references referenced =>
      intro value hvalue
      rw [h table] at hvalue
      cases hvalue
  | createIndex index => exact fun _ ↦ hdistinct _ _
  | addColumn table name type notNull => exact fun _ ↦ h table
  | setNotNull table name =>
    intro row hrow
    rw [h table] at hrow
    cases hrow
  | _ => trivial

theorem rowsAfter_of_empty {name : String} (h : rows name = []) (statement : Statement T) :
    rowsAfter rows statement name = [] := by
  cases statement with
  | dropTable table =>
    rw [rowsAfter, Function.update_apply]
    split
    · rfl
    · exact h
  | dropColumn table column =>
    rw [rowsAfter, Function.update_apply]
    split
    · next heq =>
      rw [← heq, h]
      rfl
    · exact h
  | _ => exact h

theorem rowsAfterAll_of_empty {name : String} (h : rows name = [])
    (statements : List (Statement T)) : rowsAfterAll rows statements name = [] := by
  induction statements generalizing rows with
  | nil => exact h
  | cons statement statements ih => exact ih (rowsAfter_of_empty h statement)

theorem admitsAll_of_empty (h : ∀ name, rows name = []) (statements : List (Statement T)) :
    AdmitsAll rows statements := by
  induction statements generalizing rows with
  | nil => trivial
  | cons statement statements ih =>
    exact ⟨admits_of_empty h statement, ih fun name ↦ rowsAfter_of_empty (h name) statement⟩

theorem eq_nil_of_rowsAfter {name : String} {statement : Statement T}
    (hdrop : statement ≠ .dropTable name) (h : rowsAfter rows statement name = []) :
    rows name = [] := by
  cases statement with
  | dropTable table =>
    have hne : name ≠ table := fun heq ↦ hdrop (by rw [heq])
    rwa [rowsAfter, Function.update_of_ne hne] at h
  | dropColumn table column =>
    rw [rowsAfter, Function.update_apply] at h
    split at h
    · next heq =>
      rw [heq]
      exact List.map_eq_nil_iff.mp h
    · exact h
  | _ => exact h

/-- A column that has to have a value, and gets no default, needs an empty table. -/
theorem eq_nil_of_addColumn {table column : String} {type : T} {statements : List (Statement T)}
    (hdrop : .dropTable table ∉ statements) (hadd : .addColumn table column type true ∈ statements)
    (h : AdmitsAll rows statements) : rows table = [] := by
  induction statements generalizing rows with
  | nil => cases hadd
  | cons statement statements ih =>
    obtain ⟨hfirst, hrest⟩ := h
    rcases List.mem_cons.mp hadd with rfl | hadd
    · exact hfirst rfl
    · have hne : statement ≠ .dropTable table := fun heq ↦ hdrop (heq ▸ List.mem_cons_self)
      have hdrop' := fun hmem ↦ hdrop (List.mem_cons_of_mem _ hmem)
      exact eq_nil_of_rowsAfter hne (ih hdrop' hadd hrest)

variable (V) in
/-- The rows have no part in the statement. -/
def OnlySchema (statement : Statement T) : Prop :=
  ∀ rows : String → List (Row V), Admits rows statement ∧ rowsAfter rows statement = rows

theorem admitsAll_of_onlySchema {statements : List (Statement T)}
    (h : ∀ statement ∈ statements, OnlySchema V statement) :
    AdmitsAll rows statements ∧ rowsAfterAll rows statements = rows := by
  induction statements with
  | nil => exact ⟨trivial, rfl⟩
  | cons statement statements ih =>
    obtain ⟨hfirst, hrest⟩ := List.forall_mem_cons.mp h
    obtain ⟨hadmits, hrows⟩ := hfirst rows
    obtain ⟨hadmits', hrows'⟩ := ih hrest
    rw [AdmitsAll, rowsAfterAll, List.foldl_cons, hrows]
    exact ⟨⟨hadmits, hadmits'⟩, hrows'⟩

end Rows

theorem execAll_of_onlySchema [DecidableEq V] {db : Database T V} {statements : List (Statement T)}
    (h : ∀ statement ∈ statements, OnlySchema V statement) {schema : Schema T}
    (hschema : db.schema.execAll statements = some schema) :
    db.execAll statements = some ⟨schema, db.rows⟩ := by
  obtain ⟨hadmits, hrows⟩ := admitsAll_of_onlySchema h
  exact execAll_eq_some_iff.mpr ⟨hschema, hadmits, hrows.symm⟩

/-! ## What the rows keep -/

/-- Row for row, the cells of a column are the same. -/
def Agree (column : String) (rows rows' : List (Row V)) : Prop :=
  List.Forall₂ (fun row row' ↦ row' column = row column) rows rows'

theorem Agree.refl (column : String) (rows : List (Row V)) : Agree column rows rows :=
  List.forall₂_same.mpr fun _ _ ↦ rfl

theorem Agree.filterMap_eq {column : String} {rows rows' : List (Row V)}
    (h : Agree column rows rows') :
    rows'.filterMap (fun row ↦ row column) = rows.filterMap fun row ↦ row column := by
  induction h with
  | nil => rfl
  | cons hrow hrest ih =>
    simp only [List.filterMap_cons, hrow, ih]

theorem Agree.ne_none {column : String} {rows rows' : List (Row V)}
    (h : Agree column rows rows') (hrows : ∀ row ∈ rows, row column ≠ none) :
    ∀ row ∈ rows', row column ≠ none := by
  induction h with
  | nil => exact hrows
  | cons hrow hrest ih =>
    rw [List.forall_mem_cons] at hrows ⊢
    exact ⟨hrow ▸ hrows.1, ih hrows.2⟩

end Database

/-- The statement discards the cells of a column. -/
def Statement.Discards (table column : String) : Statement T → Prop
  | dropTable name => name = table
  | dropColumn name dropped => name = table ∧ dropped = column
  | _ => False

namespace Database

theorem agree_rowsAfter {rows : String → List (Row V)} {statement : Statement T}
    {table column : String} (h : ¬statement.Discards table column) :
    Agree column (rows table) (rowsAfter rows statement table) := by
  cases statement with
  | dropTable name =>
    have hne : table ≠ name := fun heq ↦ h heq.symm
    rw [rowsAfter, Function.update_of_ne hne]
    exact .refl _ _
  | dropColumn name dropped =>
    by_cases heq : table = name
    · subst heq
      have hne : column ≠ dropped := fun heq ↦ h ⟨rfl, heq.symm⟩
      rw [rowsAfter, Function.update_self, Agree, List.forall₂_map_right_iff, List.forall₂_same]
      exact fun row _ ↦ Function.update_of_ne hne none row
    · rw [rowsAfter, Function.update_of_ne heq]
      exact .refl _ _
  | _ => exact .refl _ _

/-- Every row is still there, with its cells in all columns that the table had and has. -/
def Preserves (db db' : Database T V) : Prop :=
  ∀ t ∈ db.schema.tables, ∃ t' ∈ db'.schema.tables, t'.name = t.name ∧
    List.Forall₂ (fun row row' ↦ ∀ column, (t.column? column).isSome → (t'.column? column).isSome →
      row' column = row column) (db.rows t.name) (db'.rows t.name)

end Database

end Sql
