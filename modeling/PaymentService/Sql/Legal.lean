import PaymentService.Sql.Ddl

/-!
# Legal content

What a schema promises about the rows: the cells have the types of their columns and are not NULL
where they must not be, there are no cells outside the columns, and keys, references and unique
indexes hold. A statement that goes through keeps this, whatever it does to the schema.
-/

namespace Sql

variable {T V : Type}

/-- A cell of the column may be this. -/
def Column.Accepts (accepts : T → V → Prop) (c : Column T) : Option V → Prop
  | none => c.notNull = false
  | some value => accepts c.type value

instance {accepts : T → V → Prop} [∀ type value, Decidable (accepts type value)] (c : Column T) :
    DecidablePred (c.Accepts accepts)
  | none => inferInstanceAs (Decidable (c.notNull = false))
  | some value => inferInstanceAs (Decidable (accepts c.type value))

namespace Database

structure Legal (accepts : T → V → Prop) (db : Database T V) : Prop where
  tables : (db.schema.tables.map Table.name).Nodup
  columns : ∀ t ∈ db.schema.tables, (t.columns.map Column.name).Nodup
  /-- There are no rows outside the tables, -/
  missing : ∀ name, db.schema.table? name = none → db.rows name = []
  /-- and no cells outside the columns. -/
  absent : ∀ t ∈ db.schema.tables, ∀ row ∈ db.rows t.name, ∀ name, t.column? name = none →
    row name = none
  cells : ∀ t ∈ db.schema.tables, ∀ row ∈ db.rows t.name, ∀ c ∈ t.columns,
    c.Accepts accepts (row c.name)
  constraints : ∀ t ∈ db.schema.tables, ∀ c ∈ t.constraints, c.Holds db.rows t.name
  indexes : ∀ index ∈ db.schema.indexes, index.unique = true →
    Distinct index.column (db.rows index.table)

variable {accepts : T → V → Prop}

theorem legal_of_empty {schema : Schema T} {rows : String → List (Row V)}
    (htables : (schema.tables.map Table.name).Nodup)
    (hcolumns : ∀ t ∈ schema.tables, (t.columns.map Column.name).Nodup)
    (hrows : ∀ name, rows name = []) : Legal accepts ⟨schema, rows⟩ where
  tables := htables
  columns := hcolumns
  missing := fun name _ ↦ hrows name
  absent := by
    intro t _ row hrow
    have hnil : rows t.name = [] := hrows t.name
    simp only [hnil, List.not_mem_nil] at hrow
  cells := by
    intro t _ row hrow
    have hnil : rows t.name = [] := hrows t.name
    simp only [hnil, List.not_mem_nil] at hrow
  constraints := fun t _ c _ ↦ admits_of_empty hrows (.addConstraint (T := T) t.name c)
  indexes := fun index _ ↦ admits_of_empty hrows (.createIndex (T := T) index)

/-! ## A table at a time -/

section Table

variable {db : Database T V} {t t' : Table T}

theorem Legal.table?_eq_some_iff (h : db.Legal accepts) {name : String} :
    db.schema.table? name = some t ↔ t ∈ db.schema.tables ∧ t.name = name :=
  Keyed.find_eq_some_iff h.tables

theorem Legal.setTable (h : db.Legal accepts) (hcolumns : (t.columns.map Column.name).Nodup)
    (habsent : ∀ row ∈ db.rows t.name, ∀ name, t.column? name = none → row name = none)
    (hcells : ∀ row ∈ db.rows t.name, ∀ c ∈ t.columns, c.Accepts accepts (row c.name))
    (hconstraints : ∀ c ∈ t.constraints, c.Holds db.rows t.name) :
    Legal accepts ⟨db.schema.setTable t, db.rows⟩ where
  tables := by
    rw [Schema.setTable, Keyed.map_key_replace Table.name rfl]
    exact h.tables
  columns := by
    intro u hu
    rcases Keyed.mem_replace hu with rfl | ⟨hu, -⟩
    · exact hcolumns
    · exact h.columns u hu
  missing := by
    intro name hnone
    refine h.missing name (Keyed.find_eq_none.mpr fun u hu hne ↦ ?_)
    by_cases heq : u.name = t.name
    · exact Keyed.find_eq_none.mp hnone t (Keyed.mem_replace_self Table.name hu heq) (heq ▸ hne)
    · have hmem : u ∈ (db.schema.setTable t).tables :=
        List.mem_map.mpr ⟨u, hu, if_neg heq⟩
      exact Keyed.find_eq_none.mp hnone u hmem hne
  absent := by
    intro u hu
    rcases Keyed.mem_replace hu with rfl | ⟨hu, -⟩
    · exact habsent
    · exact h.absent u hu
  cells := by
    intro u hu
    rcases Keyed.mem_replace hu with rfl | ⟨hu, -⟩
    · exact hcells
    · exact h.cells u hu
  constraints := by
    intro u hu
    rcases Keyed.mem_replace hu with rfl | ⟨hu, -⟩
    · exact hconstraints
    · exact h.constraints u hu
  indexes := h.indexes

theorem Legal.setConstraints (h : db.Legal accepts) (ht : t ∈ db.schema.tables)
    {constraints : List Constraint} (hconstraints : ∀ c ∈ constraints, c.Holds db.rows t.name) :
    Legal accepts ⟨db.schema.setTable { t with constraints := constraints }, db.rows⟩ :=
  h.setTable (t := { t with constraints := constraints }) (h.columns t ht) (h.absent t ht)
    (h.cells t ht) hconstraints

theorem Legal.addColumn (h : db.Legal accepts) (ht : t ∈ db.schema.tables) {name : String}
    {type : T} {notNull : Bool} (hfresh : t.column? name = none)
    (hrows : notNull = true → db.rows t.name = []) :
    Legal accepts ⟨db.schema.setTable { t with columns := t.columns ++ [⟨name, type, notNull, none⟩] },
      db.rows⟩ := by
  have hne := Keyed.find_eq_none.mp hfresh
  have hfind : ∀ other, Keyed.find Column.name other (t.columns ++ [⟨name, type, notNull, none⟩]) =
      none → t.column? other = none := by
    intro other hnone
    refine Keyed.find_eq_none.mpr fun c hc ↦ ?_
    exact Keyed.find_eq_none.mp hnone c (List.mem_append_left _ hc)
  refine h.setTable (t := { t with columns := t.columns ++ [⟨name, type, notNull, none⟩] })
    ?_ ?_ ?_ (h.constraints t ht)
  · rw [List.map_append, List.nodup_append]
    refine ⟨h.columns t ht, List.nodup_singleton _, fun other hother new hnew ↦ ?_⟩
    obtain ⟨c, hc, rfl⟩ := List.mem_map.mp hother
    rw [List.map_singleton, List.mem_singleton] at hnew
    rw [hnew]
    exact hne c hc
  · exact fun row hrow other hnone ↦ h.absent t ht row hrow other (hfind other hnone)
  · intro row hrow c hc
    rcases List.mem_append.mp hc with hc | hc
    · exact h.cells t ht row hrow c hc
    · obtain rfl := List.mem_singleton.mp hc
      rw [h.absent t ht row hrow name hfresh]
      cases notNull with
      | false => rfl
      | true => cases (hrows rfl) ▸ hrow

theorem Legal.setNotNull (h : db.Legal accepts) (ht : t ∈ db.schema.tables) {name : String}
    {c : Column T} (hc : t.column? name = some c) {notNull : Bool}
    (hrows : notNull = true → ∀ row ∈ db.rows t.name, row name ≠ none) :
    Legal accepts ⟨db.schema.setTable { t with
      columns := Keyed.replace Column.name name { c with notNull := notNull } t.columns },
        db.rows⟩ := by
  have hname : c.name = name := Keyed.key_of_find hc
  refine h.setTable (t := { t with
    columns := Keyed.replace Column.name name { c with notNull := notNull } t.columns })
    ?_ ?_ ?_ (h.constraints t ht)
  · have hsame : ({ c with notNull := notNull } : Column T).name = name := hname
    rw [Keyed.map_key_replace Column.name hsame]
    exact h.columns t ht
  · intro row hrow other hnone
    refine h.absent t ht row hrow other (Keyed.find_eq_none.mpr fun d hd hne ↦ ?_)
    by_cases heq : d.name = name
    · exact Keyed.find_eq_none.mp hnone _ (Keyed.mem_replace_self Column.name hd heq)
        (hname.trans (heq.symm.trans hne))
    · exact Keyed.find_eq_none.mp hnone d (List.mem_map.mpr ⟨d, hd, if_neg heq⟩) hne
  · intro row hrow d hd
    rcases Keyed.mem_replace hd with rfl | ⟨hd, -⟩
    · have hcell := h.cells t ht row hrow c (Keyed.mem_of_find hc)
      change Column.Accepts accepts { c with notNull := notNull } (row c.name)
      rcases hvalue : row c.name with _ | value
      · cases notNull with
        | false => rfl
        | true => exact absurd (hname ▸ hvalue) (hrows rfl row hrow)
      · rw [hvalue] at hcell
        exact hcell
    · exact h.cells t ht row hrow d hd

theorem Legal.createTable (h : db.Legal accepts) (hfresh : db.schema.table? t.name = none)
    (hcolumns : (t.columns.map Column.name).Nodup) :
    Legal accepts ⟨{ db.schema with tables := db.schema.tables ++ [t] }, db.rows⟩ := by
  have hnone : db.rows t.name = [] := h.missing t.name hfresh
  have hne := Keyed.find_eq_none.mp hfresh
  have hnew : ∀ {P : Table T → Prop}, (∀ u ∈ db.schema.tables, P u) → P t →
      ∀ u ∈ db.schema.tables ++ [t], P u := by
    intro P hold ht u hu
    rcases List.mem_append.mp hu with hu | hu
    · exact hold u hu
    · rw [List.mem_singleton.mp hu]
      exact ht
  refine ⟨?_, hnew h.columns hcolumns, ?_, hnew h.absent ?_, hnew h.cells ?_,
    hnew h.constraints ?_, h.indexes⟩
  · rw [List.map_append, List.nodup_append]
    refine ⟨h.tables, List.nodup_singleton _, fun other hother new hnew ↦ ?_⟩
    obtain ⟨u, hu, rfl⟩ := List.mem_map.mp hother
    rw [List.map_singleton, List.mem_singleton] at hnew
    rw [hnew]
    exact hne u hu
  · intro name hmissing
    refine h.missing name (Keyed.find_eq_none.mpr fun u hu ↦ ?_)
    exact Keyed.find_eq_none.mp hmissing u (List.mem_append_left _ hu)
  · intro row hrow
    cases hnone ▸ hrow
  · intro row hrow
    cases hnone ▸ hrow
  · intro c _
    cases c with
    | primaryKey name column =>
      refine ⟨fun row hrow ↦ ?_, ?_⟩
      · cases hnone ▸ hrow
      · rw [hnone]
        exact List.nodup_nil
    | foreignKey name column references referenced =>
      intro value hvalue
      cases hnone ▸ hvalue

end Table

/-- A constraint only sees its own column and the one it refers to. -/
theorem Constraint.Holds.congr {rows rows' : String → List (Row V)} {table : String}
    {c : Constraint} (h : c.Holds rows table) (hcolumn : Agree c.column (rows table) (rows' table))
    (hreferred : ∀ other column, c.RefersTo other column →
      Agree column (rows other) (rows' other)) : c.Holds rows' table := by
  cases c with
  | primaryKey name column =>
    have hcells := hcolumn.filterMap_eq
    refine ⟨hcolumn.ne_none h.1, ?_⟩
    rw [Constraint.column] at hcells
    rw [Distinct, hcells]
    exact h.2
  | foreignKey name column references referenced =>
    have hother := hreferred references referenced ⟨rfl, rfl⟩
    intro value hvalue
    rw [hother.filterMap_eq]
    exact h value (hcolumn.filterMap_eq ▸ hvalue)

section Drop

variable {db : Database T V}

theorem Legal.dropTable (h : db.Legal accepts) {name : String}
    (hunreferred : ∀ other ∈ db.schema.tables, other.name ≠ name → ∀ c ∈ other.constraints,
      ¬c.RefersToTable name) :
    Legal accepts ⟨⟨db.schema.tables.filter fun other ↦ other.name ≠ name,
      db.schema.indexes.filter fun index ↦ index.table ≠ name⟩,
        rowsAfter db.rows (.dropTable (T := T) name)⟩ := by
  have hrows : ∀ other ≠ name, rowsAfter db.rows (.dropTable (T := T) name) other =
      db.rows other := fun other hne ↦ Function.update_of_ne hne _ _
  have hother : ∀ u ∈ db.schema.tables.filter fun other ↦ other.name ≠ name,
      u ∈ db.schema.tables ∧ u.name ≠ name := by
    intro u hu
    obtain ⟨hmem, hne⟩ := List.mem_filter.mp hu
    exact ⟨hmem, of_decide_eq_true hne⟩
  refine ⟨?_, fun u hu ↦ h.columns u (hother u hu).1, ?_, ?_, ?_, ?_, ?_⟩
  · exact h.tables.sublist (List.filter_sublist.map _)
  · intro other hmissing
    by_cases heq : other = name
    · rw [heq]
      exact Function.update_self _ _ _
    · refine (hrows other heq).trans ?_
      refine h.missing other (Keyed.find_eq_none.mpr fun u hu hname ↦ ?_)
      have hmem : u ∈ db.schema.tables.filter fun other ↦ other.name ≠ name :=
        List.mem_filter.mpr ⟨hu, decide_eq_true (hname.symm ▸ heq)⟩
      exact Keyed.find_eq_none.mp hmissing u hmem hname
  · intro u hu
    obtain ⟨hmem, hne⟩ := hother u hu
    have habsent := h.absent u hmem
    rw [← hrows u.name hne] at habsent
    exact habsent
  · intro u hu
    obtain ⟨hmem, hne⟩ := hother u hu
    have hcells := h.cells u hmem
    rw [← hrows u.name hne] at hcells
    exact hcells
  · intro u hu c hc
    obtain ⟨hmem, hne⟩ := hother u hu
    have hkept : ∀ {other column}, other ≠ name →
        Agree column (db.rows other) (rowsAfter db.rows (.dropTable (T := T) name) other) :=
      fun hne ↦ agree_rowsAfter fun heq ↦ hne heq.symm
    refine Constraint.Holds.congr (h.constraints u hmem c hc) (hkept hne)
      fun other column hrefers ↦ hkept ?_
    rintro rfl
    refine hunreferred u hmem hne c hc ?_
    cases c with
    | primaryKey => exact hrefers
    | foreignKey => exact hrefers.1
  · intro index hindex hunique
    obtain ⟨hmem, hne⟩ := List.mem_filter.mp hindex
    have hdistinct := h.indexes index hmem hunique
    rw [← hrows index.table (of_decide_eq_true hne)] at hdistinct
    exact hdistinct

theorem Legal.dropColumn (h : db.Legal accepts) {t : Table T} (ht : t ∈ db.schema.tables)
    {name : String} (hunreferred : ∀ other ∈ db.schema.tables, ∀ c ∈ other.constraints,
      ¬c.RefersTo t.name name) :
    Legal accepts ⟨{ db.schema.setTable { t with
          columns := t.columns.filter fun c ↦ c.name ≠ name
          constraints := t.constraints.filter fun c ↦ c.column ≠ name } with
        indexes := db.schema.indexes.filter fun index ↦
          ¬(index.table = t.name ∧ index.column = name) },
      rowsAfter db.rows (.dropColumn (T := T) t.name name)⟩ := by
  have hrows : ∀ {row}, row ∈ rowsAfter db.rows (.dropColumn (T := T) t.name name) t.name →
      ∃ row₀ ∈ db.rows t.name, Function.update row₀ name none = row := by
    intro row hrow
    rw [rowsAfter, Function.update_self] at hrow
    exact List.mem_map.mp hrow
  have hother : ∀ {other row}, other ≠ t.name →
      row ∈ rowsAfter db.rows (.dropColumn (T := T) t.name name) other → row ∈ db.rows other := by
    intro other row hne hrow
    rwa [rowsAfter, Function.update_of_ne hne] at hrow
  have hkept : ∀ {other column}, ¬(other = t.name ∧ column = name) →
      Agree column (db.rows other) (rowsAfter db.rows (.dropColumn (T := T) t.name name) other) :=
    fun hne ↦ agree_rowsAfter fun heq ↦ hne ⟨heq.1.symm, heq.2.symm⟩
  refine ⟨?_, ?_, ?_, ?_, ?_, ?_, ?_⟩
  · rw [Schema.setTable, Keyed.map_key_replace Table.name rfl]
    exact h.tables
  · intro u hu
    rcases Keyed.mem_replace hu with rfl | ⟨hu, -⟩
    · exact (h.columns t ht).sublist (List.filter_sublist.map _)
    · exact h.columns u hu
  · intro other hmissing
    refine rowsAfter_of_empty (h.missing other (Keyed.find_eq_none.mpr fun u hu hname ↦ ?_))
      (.dropColumn (T := T) t.name name)
    have hnames := Keyed.map_key_replace Table.name (k := t.name) (b := { t with
      columns := t.columns.filter fun c ↦ c.name ≠ name
      constraints := t.constraints.filter fun c ↦ c.column ≠ name }) rfl db.schema.tables
    have hmem : u.name ∈ db.schema.tables.map Table.name := List.mem_map_of_mem hu
    rw [← hnames] at hmem
    obtain ⟨u', hu', hname'⟩ := List.mem_map.mp hmem
    exact Keyed.find_eq_none.mp hmissing u' hu' (hname'.trans hname)
  · intro u hu row hrow other hmissing
    rcases Keyed.mem_replace hu with rfl | ⟨hu, hne⟩
    · obtain ⟨row₀, hrow₀, rfl⟩ := hrows hrow
      by_cases heq : other = name
      · rw [heq]
        exact Function.update_self _ _ _
      · rw [Function.update_of_ne heq]
        refine h.absent t ht row₀ hrow₀ other (Keyed.find_eq_none.mpr fun c hc hname ↦ ?_)
        have hmem : c ∈ t.columns.filter fun c ↦ c.name ≠ name :=
          List.mem_filter.mpr ⟨hc, decide_eq_true (hname.symm ▸ heq)⟩
        exact Keyed.find_eq_none.mp hmissing c hmem hname
    · exact h.absent u hu row (hother hne hrow) other hmissing
  · intro u hu row hrow c hc
    rcases Keyed.mem_replace hu with rfl | ⟨hu, hne⟩
    · obtain ⟨row₀, hrow₀, rfl⟩ := hrows hrow
      obtain ⟨hc, hname⟩ := List.mem_filter.mp hc
      rw [Function.update_of_ne (of_decide_eq_true hname)]
      exact h.cells t ht row₀ hrow₀ c hc
    · exact h.cells u hu row (hother hne hrow) c hc
  · intro u hu c hc
    rcases Keyed.mem_replace hu with rfl | ⟨hmem, hne⟩
    · obtain ⟨hmem, hcolumn⟩ := List.mem_filter.mp hc
      refine Constraint.Holds.congr (h.constraints t ht c hmem)
        (hkept fun heq ↦ of_decide_eq_true hcolumn heq.2) fun other column hrefers ↦ hkept ?_
      rintro ⟨rfl, rfl⟩
      exact hunreferred t ht c hmem hrefers
    · refine Constraint.Holds.congr (h.constraints u hmem c hc)
        (hkept fun heq ↦ hne heq.1) fun other column hrefers ↦ hkept ?_
      rintro ⟨rfl, rfl⟩
      exact hunreferred u hmem c hc hrefers
  · intro index hindex hunique
    obtain ⟨hmem, hne⟩ := List.mem_filter.mp hindex
    have hsame := (hkept (of_decide_eq_true hne)).filterMap_eq
    have hdistinct := h.indexes index hmem hunique
    rw [Distinct, ← hsame] at hdistinct
    exact hdistinct

theorem Legal.setIndexes (h : db.Legal accepts) {indexes : List Index}
    (hindexes : ∀ index ∈ indexes, index.unique = true →
      Distinct index.column (db.rows index.table)) :
    Legal accepts ⟨{ db.schema with indexes := indexes }, db.rows⟩ :=
  ⟨h.tables, h.columns, h.missing, h.absent, h.cells, h.constraints, hindexes⟩

end Drop

/-! ## Every statement -/

section Exec

variable [DecidableEq V] {db db' : Database T V}

/-- A statement that goes through leaves legal content legal. -/
theorem legal_exec (h : db.Legal accepts) {statement : Statement T}
    (hexec : db.exec statement = some db') : db'.Legal accepts := by
  obtain ⟨hschema, hadmits, hrows⟩ := exec_eq_some_iff.mp hexec
  obtain ⟨schema', rows'⟩ := db'
  simp only at hschema hrows
  subst hrows
  cases statement with
  | createTable t =>
    simp only [Schema.exec, Option.ite_none_right_eq_some, Option.some_inj] at hschema
    obtain ⟨⟨hfresh, hcolumns⟩, rfl⟩ := hschema
    exact h.createTable hfresh hcolumns
  | dropTable name =>
    simp only [Schema.exec, Option.bind_eq_bind, Option.bind_eq_some_iff,
      Option.ite_none_right_eq_some, Option.some_inj] at hschema
    obtain ⟨t, -, hunreferred, rfl⟩ := hschema
    exact h.dropTable hunreferred
  | addConstraint name c =>
    simp only [Schema.exec, Option.bind_eq_bind, Option.bind_eq_some_iff,
      Option.ite_none_right_eq_some, Option.some_inj] at hschema
    obtain ⟨t, ht, -, rfl⟩ := hschema
    obtain ⟨hmem, rfl⟩ := h.table?_eq_some_iff.mp ht
    refine h.setConstraints hmem fun d hd ↦ ?_
    rcases List.mem_append.mp hd with hd | hd
    · exact h.constraints t hmem d hd
    · rw [List.mem_singleton.mp hd]
      exact hadmits
  | dropConstraint name constraint =>
    simp only [Schema.exec, Option.bind_eq_bind, Option.bind_eq_some_iff,
      Option.ite_none_right_eq_some, Option.some_inj] at hschema
    obtain ⟨t, ht, c, -, -, rfl⟩ := hschema
    obtain ⟨hmem, rfl⟩ := h.table?_eq_some_iff.mp ht
    exact h.setConstraints hmem fun d hd ↦ h.constraints t hmem d (List.mem_filter.mp hd).1
  | createIndex index =>
    simp only [Schema.exec, Option.bind_eq_bind, Option.bind_eq_some_iff,
      Option.ite_none_right_eq_some, Option.some_inj] at hschema
    obtain ⟨t, -, c, -, -, rfl⟩ := hschema
    refine h.setIndexes fun other hother ↦ ?_
    rcases List.mem_append.mp hother with hother | hother
    · exact h.indexes other hother
    · rw [List.mem_singleton.mp hother]
      exact hadmits
  | dropIndex name =>
    simp only [Schema.exec, Option.ite_none_right_eq_some, Option.some_inj] at hschema
    obtain ⟨-, rfl⟩ := hschema
    exact h.setIndexes fun other hother ↦ h.indexes other (List.mem_filter.mp hother).1
  | addColumn name column type notNull =>
    simp only [Schema.exec, Option.bind_eq_bind, Option.bind_eq_some_iff,
      Option.ite_none_right_eq_some, Option.some_inj] at hschema
    obtain ⟨t, ht, hfresh, rfl⟩ := hschema
    obtain ⟨hmem, rfl⟩ := h.table?_eq_some_iff.mp ht
    exact h.addColumn hmem hfresh hadmits
  | dropColumn name column =>
    simp only [Schema.exec, Option.bind_eq_bind, Option.bind_eq_some_iff,
      Option.ite_none_right_eq_some, Option.some_inj] at hschema
    obtain ⟨t, ht, c, -, hunreferred, rfl⟩ := hschema
    obtain ⟨hmem, rfl⟩ := h.table?_eq_some_iff.mp ht
    exact h.dropColumn hmem hunreferred
  | setNotNull name column =>
    simp only [Schema.exec, Option.bind_eq_bind, Option.bind_eq_some_iff, Option.some_inj] at hschema
    obtain ⟨t, ht, c, hc, rfl⟩ := hschema
    obtain ⟨hmem, rfl⟩ := h.table?_eq_some_iff.mp ht
    exact h.setNotNull hmem hc fun _ ↦ hadmits
  | dropNotNull name column =>
    simp only [Schema.exec, Option.bind_eq_bind, Option.bind_eq_some_iff,
      Option.ite_none_right_eq_some, Option.some_inj] at hschema
    obtain ⟨t, ht, c, hc, -, rfl⟩ := hschema
    obtain ⟨hmem, rfl⟩ := h.table?_eq_some_iff.mp ht
    exact h.setNotNull hmem hc fun hfalse ↦ by cases hfalse

theorem legal_execAll (h : db.Legal accepts) {statements : List (Statement T)}
    (hexec : db.execAll statements = some db') : db'.Legal accepts := by
  induction statements generalizing db with
  | nil =>
    obtain rfl := Option.some_inj.mp hexec
    exact h
  | cons statement statements ih =>
    obtain ⟨db₁, hfirst, hrest⟩ := execAll_cons_eq_some_iff.mp hexec
    exact ih (legal_exec h hfirst) hrest

end Exec

/-! ## Rows that are written out -/

/-- Tables with rows, each given by its cells. -/
abbrev Content (V : Type) : Type := List (String × List (List (String × V)))

/-- What is not written out is not there. -/
def Content.rows (content : Content V) (table : String) : List (Row V) :=
  ((content.lookup table).getD []).map fun cells column ↦ cells.lookup column

/-- What is written out can be checked cell by cell. -/
structure Content.Checks (accepts : T → V → Prop) (schema : Schema T) (content : Content V) :
    Prop where
  tables : (schema.tables.map Table.name).Nodup
  columns : ∀ t ∈ schema.tables, (t.columns.map Column.name).Nodup
  missing : ∀ entry ∈ content, schema.table? entry.1 ≠ none
  absent : ∀ t ∈ schema.tables, ∀ cells ∈ (content.lookup t.name).getD [], ∀ cell ∈ cells,
    t.column? cell.1 ≠ none
  cells : ∀ t ∈ schema.tables, ∀ row ∈ content.rows t.name, ∀ c ∈ t.columns,
    c.Accepts accepts (row c.name)
  constraints : ∀ t ∈ schema.tables, ∀ c ∈ t.constraints, c.Holds content.rows t.name
  indexes : ∀ index ∈ schema.indexes, index.unique = true →
    Distinct index.column (content.rows index.table)

instance [DecidableEq V] [∀ type value, Decidable (accepts type value)] (schema : Schema T)
    (content : Content V) : Decidable (content.Checks accepts schema) :=
  decidable_of_iff
    ((schema.tables.map Table.name).Nodup ∧
      (∀ t ∈ schema.tables, (t.columns.map Column.name).Nodup) ∧
      (∀ entry ∈ content, schema.table? entry.1 ≠ none) ∧
      (∀ t ∈ schema.tables, ∀ cells ∈ (content.lookup t.name).getD [], ∀ cell ∈ cells,
        t.column? cell.1 ≠ none) ∧
      (∀ t ∈ schema.tables, ∀ row ∈ content.rows t.name, ∀ c ∈ t.columns,
        c.Accepts accepts (row c.name)) ∧
      (∀ t ∈ schema.tables, ∀ c ∈ t.constraints, c.Holds content.rows t.name) ∧
      ∀ index ∈ schema.indexes, index.unique = true →
        Distinct index.column (content.rows index.table))
    ⟨fun ⟨h₁, h₂, h₃, h₄, h₅, h₆, h₇⟩ ↦ ⟨h₁, h₂, h₃, h₄, h₅, h₆, h₇⟩,
      fun ⟨h₁, h₂, h₃, h₄, h₅, h₆, h₇⟩ ↦ ⟨h₁, h₂, h₃, h₄, h₅, h₆, h₇⟩⟩

theorem legal_of_checks {schema : Schema T} {content : Content V}
    (h : content.Checks accepts schema) : Legal accepts ⟨schema, content.rows⟩ where
  tables := h.tables
  columns := h.columns
  missing := by
    intro name hnone
    have hlookup : content.lookup name = none := by
      rw [List.lookup_eq_none_iff]
      intro entry hentry
      rw [bne_iff_ne]
      rintro rfl
      exact h.missing entry hentry hnone
    change ((content.lookup name).getD []).map _ = []
    rw [hlookup]
    rfl
  absent := by
    intro t ht row hrow name hnone
    obtain ⟨cells, hcells, rfl⟩ := List.mem_map.mp hrow
    change cells.lookup name = none
    rw [List.lookup_eq_none_iff]
    intro cell hcell
    rw [bne_iff_ne]
    rintro rfl
    exact h.absent t ht cells hcells cell hcell hnone
  cells := h.cells
  constraints := h.constraints
  indexes := h.indexes

end Database

end Sql
