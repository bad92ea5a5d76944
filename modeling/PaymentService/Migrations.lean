import PaymentService.Js.Value
import PaymentService.Sql.Legal

/-!
# The migrations

The seven migrations with their statements, and what the administration endpoints do with them:
`migrateUp` runs all that are left in one transaction, and `migrateDown` undoes the last one. All
tables and indexes are in the one schema of the service.

`Reached k` is what can be there after the first `k` migrations: their schema, with any legal
content.
-/

namespace PaymentService

open Sql

/-! ## Types and values -/

inductive PgType
  | uuid
  | varchar (length : ℕ)
  | integer
  | jsonb
  | timestamp
  | timestamptz
  deriving DecidableEq

/-- What a cell has. A moment is an instant whether or not its column has a time zone. -/
inductive PgValue
  | uuid (id : String)
  | text (s : String)
  | integer (n : BitVec 32)
  | jsonb (document : String)
  | instant (seconds : ℤ)
  deriving DecidableEq

namespace PgType

def accepts : PgType → PgValue → Bool
  | uuid, .uuid _ => true
  | varchar length, .text s => s.length ≤ length
  | integer, .integer _ => true
  | jsonb, .jsonb _ => true
  | timestamp, .instant _ => true
  | timestamptz, .instant _ => true
  | _, _ => false

abbrev Accepts (type : PgType) (value : PgValue) : Prop := type.accepts value = true

end PgType

abbrev PgDatabase : Type := Database PgType PgValue

abbrev PgStatement : Type := Statement PgType

/-! ## The statements -/

/-- A class with its `up` and `down`. -/
structure Migration where
  name : String
  up : List PgStatement
  down : List PgStatement

def transaction_log : Table PgType where
  name := "transaction_log"
  columns :=
    [⟨"id", .uuid, true, some "uuid_generate_v4()"⟩, ⟨"status", .varchar 10, true, none⟩,
      ⟨"channel", .varchar 10, false, none⟩, ⟨"event_key", .varchar 20, false, none⟩,
      ⟨"created_at", .timestamp, true, none⟩, ⟨"updated_at", .timestamp, false, none⟩,
      ⟨"transaction_status_id", .uuid, false, none⟩]
  constraints := [.primaryKey "PK_c31d1e77795e3bd9d5f6399f988" "id"]

def transaction_status : Table PgType where
  name := "transaction_status"
  columns :=
    [⟨"id", .uuid, true, some "uuid_generate_v4()"⟩, ⟨"payment_type", .varchar 50, true, none⟩,
      ⟨"amount", .integer, true, none⟩, ⟨"currency", .varchar 5, true, none⟩,
      ⟨"source", .varchar 50, true, none⟩, ⟨"description", .varchar 255, false, none⟩,
      ⟨"user_ref_id", .varchar 50, true, none⟩, ⟨"provider", .varchar 10, true, none⟩,
      ⟨"provider_ref_id", .varchar 50, true, none⟩, ⟨"status", .varchar 10, true, none⟩,
      ⟨"metadata", .jsonb, true, some "'{}'"⟩, ⟨"created_at", .timestamp, true, none⟩,
      ⟨"updated_at", .timestamp, false, none⟩]
  constraints := [.primaryKey "PK_05fbbdf6bc1db819f47975c8c0b" "id"]

def Postgres1719460788605 : Migration where
  name := "Postgres1719460788605"
  up := [.createTable transaction_log, .createTable transaction_status,
    .addConstraint "transaction_log" (.foreignKey "FK_fba443a1ae6ffc525c79fdc4851"
      "transaction_status_id" "transaction_status" "id")]
  down := [.dropConstraint "transaction_log" "FK_fba443a1ae6ffc525c79fdc4851",
    .dropTable "transaction_status", .dropTable "transaction_log"]

def Postgres1719822147448 : Migration where
  name := "Postgres1719822147448"
  up := [.createIndex ⟨"IDX_9d1eb1efc32a63b22188c9de14", "transaction_status", "source", true⟩]
  down := [.dropIndex "IDX_9d1eb1efc32a63b22188c9de14"]

def Postgres1720091720562 : Migration where
  name := "Postgres1720091720562"
  up := [.addColumn "transaction_status" "product_id" (.varchar 255) true]
  down := [.dropColumn "transaction_status" "product_id"]

def Postgres1720413288695 : Migration where
  name := "Postgres1720413288695"
  up := [.createIndex ⟨"IDX_0629e99309f0c7e45c56028246", "transaction_status", "product_id", false⟩]
  down := [.dropIndex "IDX_0629e99309f0c7e45c56028246"]

def ChangeDateTimestamptz1720695877542 : Migration where
  name := "ChangeDateTimestamptz1720695877542"
  up := [.dropColumn "transaction_status" "created_at",
    .addColumn "transaction_status" "created_at" .timestamptz true,
    .dropColumn "transaction_status" "updated_at",
    .addColumn "transaction_status" "updated_at" .timestamptz false,
    .dropColumn "transaction_log" "created_at",
    .addColumn "transaction_log" "created_at" .timestamptz true,
    .dropColumn "transaction_log" "updated_at",
    .addColumn "transaction_log" "updated_at" .timestamptz false]
  down := [.dropColumn "transaction_log" "updated_at",
    .addColumn "transaction_log" "updated_at" .timestamp false,
    .dropColumn "transaction_log" "created_at",
    .addColumn "transaction_log" "created_at" .timestamp true,
    .dropColumn "transaction_status" "updated_at",
    .addColumn "transaction_status" "updated_at" .timestamp false,
    .dropColumn "transaction_status" "created_at",
    .addColumn "transaction_status" "created_at" .timestamp true,
    .dropTable "foo"]

def Postgres1724207660951 : Migration where
  name := "Postgres1724207660951"
  up := [.createIndex ⟨"IDX_e4fe30c19369a91399934b3ae4", "transaction_status", "user_ref_id", false⟩]
  down := [.dropIndex "IDX_e4fe30c19369a91399934b3ae4"]

def Postgres1724727455862 : Migration where
  name := "Postgres1724727455862"
  up := [.dropNotNull "transaction_status" "source",
    .dropNotNull "transaction_status" "provider_ref_id"]
  down := [.setNotNull "transaction_status" "provider_ref_id",
    .setNotNull "transaction_status" "source"]

/-- In the order of their timestamps. -/
def migrations : List Migration :=
  [Postgres1719460788605, Postgres1719822147448, Postgres1720091720562, Postgres1720413288695,
    ChangeDateTimestamptz1720695877542, Postgres1724207660951, Postgres1724727455862]

/-! ## Running and undoing -/

/-- The database, and how many of the migrations its record of them has. They are run in their order
and undone from the last, so that it has the first ones. -/
structure DataSource where
  database : PgDatabase
  executed : ℕ

namespace DataSource

/-- Run what is pending, in one transaction; there is no result when a statement fails, and then
nothing has changed. -/
def runMigrations (orm : DataSource) : Option (List Migration × DataSource) := do
  let pending := migrations.drop orm.executed
  let database ← orm.database.execAll (pending.flatMap Migration.up)
  some (pending, ⟨database, orm.executed + pending.length⟩)

/-- Undo the last one, in a transaction; without one there is nothing to do. -/
def undoLastMigration (orm : DataSource) : Option DataSource :=
  match orm.executed with
  | 0 => some orm
  | executed + 1 => do
    let migration ← migrations[executed]?
    let database ← orm.database.execAll migration.down
    some ⟨database, executed⟩

end DataSource

/-- `POST /payment/admin/migrate-up`. -/
def migrateUp (orm : DataSource) : Option (Js × DataSource) := do
  let (res, orm) ← orm.runMigrations
  some (.obj [("message", .str s!"success {res.length} records has been migrated up"),
    ("records", .arr (res.map fun o ↦ .obj [("file", .str o.name)]))], orm)

/-- `POST /payment/admin/migrate-down`. -/
def migrateDown (orm : DataSource) : Option (Js × DataSource) := do
  let orm ← orm.undoLastMigration
  some (.obj [("message", .str "success migrated down")], orm)

/-! ## What is there after some of them -/

/-- The schema after the first `k` migrations. -/
def schemaAfter (k : ℕ) : Option (Schema PgType) :=
  Schema.empty.execAll ((migrations.take k).flatMap Migration.up)

/-- The first `k` migrations have been run, and the tables have been filled since. -/
structure Reached (k : ℕ) (db : PgDatabase) : Prop where
  schema : schemaAfter k = some db.schema
  legal : db.Legal PgType.Accepts

theorem reached_of_execAll {k : ℕ} {db : PgDatabase}
    (h : (⟨Schema.empty, fun _ ↦ []⟩ : PgDatabase).execAll
      ((migrations.take k).flatMap Migration.up) = some db) : Reached k db := by
  have hlegal : (⟨Schema.empty, fun _ ↦ []⟩ : PgDatabase).Legal PgType.Accepts :=
    Database.legal_of_empty List.nodup_nil (fun t ht ↦ absurd ht List.not_mem_nil) fun _ ↦ rfl
  exact ⟨(Database.execAll_eq_some_iff.mp h).1, Database.legal_execAll hlegal h⟩

theorem reached_of_empty {k : ℕ} {schema : Schema PgType} (h : schemaAfter k = some schema) :
    Reached k ⟨schema, fun _ ↦ []⟩ := by
  have hrows : Database.rowsAfterAll (fun _ ↦ []) ((migrations.take k).flatMap Migration.up) =
      (fun _ ↦ [] : String → List (Row PgValue)) :=
    funext fun _ ↦ Database.rowsAfterAll_of_empty rfl _
  refine reached_of_execAll (Database.execAll_eq_some_iff.mpr ⟨h, ?_, hrows.symm⟩)
  exact Database.admitsAll_of_empty (fun _ ↦ rfl) _

theorem schemaAfter_up (k : ℕ) :
    (schemaAfter k).bind (fun schema ↦ schema.execAll ((migrations.drop k).flatMap Migration.up)) =
      schemaAfter migrations.length := by
  rw [schemaAfter, ← Schema.execAll_append, ← List.flatMap_append, List.take_append_drop,
    schemaAfter, List.take_length]

/-- What the schemas are like, computed for each number of migrations. -/
theorem schemas_checked :
    (∀ k ≤ migrations.length, (schemaAfter k).isSome = true) ∧
      (∀ k ≤ migrations.length, ∀ schema ∈ schemaAfter k, ∀ t ∈ schema.tables,
        (t.name = "transaction_log" ∨ t.name = "transaction_status") ∧
          ∃ schema' ∈ schemaAfter migrations.length, ∃ t' ∈ schema'.tables, t'.name = t.name) ∧
      ∀ k < migrations.length, ∀ migration ∈ migrations[k]?,
        (schemaAfter (k + 1)).bind (fun schema ↦ schema.execAll migration.down) =
          if k = 4 then none else schemaAfter k := by
  decide +kernel

theorem isSome_schemaAfter {k : ℕ} (hk : k ≤ migrations.length) : (schemaAfter k).isSome = true :=
  schemas_checked.1 k hk

theorem tables_of_schemaAfter {k : ℕ} (hk : k ≤ migrations.length) {schema : Schema PgType}
    (h : schemaAfter k = some schema) {t : Table PgType} (ht : t ∈ schema.tables) :
    (t.name = "transaction_log" ∨ t.name = "transaction_status") ∧
      ∃ schema' ∈ schemaAfter migrations.length, ∃ t' ∈ schema'.tables, t'.name = t.name :=
  schemas_checked.2.1 k hk schema h t ht

theorem schemaAfter_down {k : ℕ} (hk : k < migrations.length) {migration : Migration}
    (h : migrations[k]? = some migration) :
    (schemaAfter (k + 1)).bind (fun schema ↦ schema.execAll migration.down) =
      if k = 4 then none else schemaAfter k :=
  schemas_checked.2.2 k hk migration h

/-! ## Up

The fifth migration drops the columns of the moments and adds them again, and they must not be NULL.
So it fails on every table that has a row, and with it all that is run together with it. Where it
has been run, what is left does not touch a row. -/

theorem migrateUp_eq_some_iff {db db' : PgDatabase} {k : ℕ} (hk : k ≤ migrations.length) :
    (∃ res, migrateUp ⟨db, k⟩ = some (res, ⟨db', migrations.length⟩)) ↔
      db.execAll ((migrations.drop k).flatMap Migration.up) = some db' := by
  have hlength : k + (migrations.length - k) = migrations.length := Nat.add_sub_of_le hk
  simp only [migrateUp, DataSource.runMigrations, Option.bind_eq_bind]
  rcases db.execAll ((migrations.drop k).flatMap Migration.up) with _ | database
  · simp
  · simp [hlength]

theorem dropTable_not_mem_up : ∀ k ≤ migrations.length,
    (.dropTable "transaction_status" : PgStatement) ∉ (migrations.drop k).flatMap Migration.up ∧
      (.dropTable "transaction_log" : PgStatement) ∉ (migrations.drop k).flatMap Migration.up := by
  decide

theorem created_at_mem_up : ∀ k < 5,
    (.addColumn "transaction_status" "created_at" .timestamptz true : PgStatement) ∈
        (migrations.drop k).flatMap Migration.up ∧
      (.addColumn "transaction_log" "created_at" .timestamptz true : PgStatement) ∈
        (migrations.drop k).flatMap Migration.up := by
  decide

theorem onlySchema_up {k : ℕ} (hk : 5 ≤ k) :
    ∀ statement ∈ (migrations.drop k).flatMap Migration.up,
      Database.OnlySchema PgValue statement := by
  have hlast : ∀ statement ∈ (migrations.drop 5).flatMap Migration.up,
      Database.OnlySchema PgValue statement := by
    refine List.forall_mem_cons.mpr ⟨fun rows ↦ ⟨fun hunique ↦ absurd hunique Bool.false_ne_true, rfl⟩,
      ?_⟩
    refine List.forall_mem_cons.mpr ⟨fun rows ↦ ⟨trivial, rfl⟩, ?_⟩
    exact List.forall_mem_singleton.mpr fun rows ↦ ⟨trivial, rfl⟩
  intro statement hstatement
  obtain ⟨migration, hmigration, hmem⟩ := List.mem_flatMap.mp hstatement
  have hdrop : migrations.drop k = (migrations.drop 5).drop (k - 5) := by
    rw [List.drop_drop, Nat.add_sub_of_le hk]
  rw [hdrop] at hmigration
  exact hlast statement (List.mem_flatMap.mpr ⟨migration, List.mem_of_mem_drop hmigration, hmem⟩)

theorem Reached.rows_eq_nil {k : ℕ} (hk : k ≤ migrations.length) {db : PgDatabase}
    (h : Reached k db) (hstatus : db.rows "transaction_status" = [])
    (hlog : db.rows "transaction_log" = []) (name : String) : db.rows name = [] := by
  rcases htable : db.schema.table? name with _ | t
  · exact h.legal.missing name htable
  · obtain ⟨ht, rfl⟩ := h.legal.table?_eq_some_iff.mp htable
    rcases (tables_of_schemaAfter hk h.schema ht).1 with hname | hname
    · rw [hname]
      exact hlog
    · rw [hname]
      exact hstatus

theorem Reached.exists_schema {k : ℕ} {db : PgDatabase} (h : Reached k db) :
    ∃ schema, db.schema.execAll ((migrations.drop k).flatMap Migration.up) = some schema ∧
      schemaAfter migrations.length = some schema := by
  obtain ⟨schema, hschema⟩ := Option.isSome_iff_exists.mp
    (isSome_schemaAfter (Nat.le_refl _))
  have hup := schemaAfter_up k
  rw [h.schema, Option.bind_some, hschema] at hup
  exact ⟨schema, hup, hschema⟩

theorem Reached.preserves {k : ℕ} (hk : k ≤ migrations.length) {db db' : PgDatabase}
    (h : Reached k db) (hschema : schemaAfter migrations.length = some db'.schema)
    (hrows : ∀ t ∈ db.schema.tables, db'.rows t.name = db.rows t.name) : db.Preserves db' := by
  intro t ht
  obtain ⟨schema', hschema', t', ht', hname⟩ := (tables_of_schemaAfter hk h.schema ht).2
  obtain rfl : db'.schema = schema' := Option.some_inj.mp (hschema.symm.trans hschema')
  refine ⟨t', ht', hname, ?_⟩
  rw [hrows t ht]
  exact List.forall₂_same.mpr fun row _ column _ _ ↦ rfl

/-- Running the migrations that are left succeeds and preserves every row exactly when the fifth has
been run before, or there are no rows. -/
theorem migrateUp_preserves_iff {k : ℕ} (hk : k ≤ migrations.length) {db : PgDatabase}
    (h : Reached k db) :
    (∃ res db', migrateUp ⟨db, k⟩ = some (res, ⟨db', migrations.length⟩) ∧
        Reached migrations.length db' ∧ db.Preserves db') ↔
      5 ≤ k ∨ db.rows "transaction_status" = [] ∧ db.rows "transaction_log" = [] := by
  obtain ⟨schema, hschema, hall⟩ := h.exists_schema
  constructor
  · rintro ⟨res, db', hup, -, -⟩
    have hexec := (migrateUp_eq_some_iff hk).mp ⟨res, hup⟩
    have hadmits := (Database.execAll_eq_some_iff.mp hexec).2.1
    rcases Nat.lt_or_ge k 5 with hlt | hge
    · have hdrop := dropTable_not_mem_up k hk
      have hadd := created_at_mem_up k hlt
      exact Or.inr ⟨Database.eq_nil_of_addColumn hdrop.1 hadd.1 hadmits,
        Database.eq_nil_of_addColumn hdrop.2 hadd.2 hadmits⟩
    · exact Or.inl hge
  · intro hcondition
    have hexec : ∃ db', db.execAll ((migrations.drop k).flatMap Migration.up) = some db' ∧
        db'.schema = schema ∧ ∀ t ∈ db.schema.tables, db'.rows t.name = db.rows t.name := by
      rcases hcondition with hge | ⟨hstatus, hlog⟩
      · exact ⟨⟨schema, db.rows⟩, Database.execAll_of_onlySchema (onlySchema_up hge) hschema, rfl,
          fun _ _ ↦ rfl⟩
      · have hempty := h.rows_eq_nil hk hstatus hlog
        refine ⟨⟨schema, Database.rowsAfterAll db.rows _⟩, Database.execAll_eq_some_iff.mpr
          ⟨hschema, Database.admitsAll_of_empty hempty _, rfl⟩, rfl, fun t _ ↦ ?_⟩
        exact (Database.rowsAfterAll_of_empty (hempty t.name) _).trans (hempty t.name).symm
    obtain ⟨db', hexec, hschema', hrows⟩ := hexec
    obtain ⟨res, hup⟩ := (migrateUp_eq_some_iff hk).mpr hexec
    rw [← hschema'] at hall
    exact ⟨res, db', hup, ⟨hall, Database.legal_execAll h.legal hexec⟩, h.preserves hk hall hrows⟩

/-- One purchase, as it is kept in the columns that there are from the third migration on. -/
def purchase : Database.Content PgValue :=
  [("transaction_status", [[("id", .uuid "2f1d"), ("payment_type", .text "credit_card"),
    ("amount", .integer 100#32), ("currency", .text "THB"), ("source", .text "src_1"),
    ("user_ref_id", .text "user"), ("provider", .text "omise"), ("provider_ref_id", .text "chrg_1"),
    ("status", .text "PENDING"), ("metadata", .jsonb "{}"), ("created_at", .instant 1719460788),
    ("product_id", .text "product")]])]

/-- The purchase in the schema after the first `k` migrations. -/
def purchased (k : ℕ) : PgDatabase := ⟨(schemaAfter k).getD Schema.empty, purchase.rows⟩

theorem reached_purchased {k : ℕ} (hk : k ≤ migrations.length) (h3 : 3 ≤ k) :
    Reached k (purchased k) := by
  have hchecks : ∀ k ≤ migrations.length, 3 ≤ k → ∀ schema ∈ schemaAfter k,
      purchase.Checks PgType.Accepts schema := by decide +kernel
  obtain ⟨schema, hschema⟩ := Option.isSome_iff_exists.mp (isSome_schemaAfter hk)
  rw [purchased, hschema, Option.getD_some]
  exact ⟨hschema, Database.legal_of_checks (hchecks k hk h3 schema hschema)⟩

theorem migrateUp_preserves_purchase :
    ∃ res db', migrateUp ⟨purchased 5, 5⟩ = some (res, ⟨db', migrations.length⟩) ∧
      Reached migrations.length db' ∧ (purchased 5).Preserves db' := by
  have hk : 5 ≤ migrations.length := by decide
  have hreached : Reached 5 (purchased 5) := reached_purchased hk (by decide)
  exact (migrateUp_preserves_iff hk hreached).mpr (Or.inl (Nat.le_refl 5))

/-- After the fourth migration, a purchase is enough for the rest to fail. -/
theorem migrateUp_fails :
    Reached 4 (purchased 4) ∧ migrateUp ⟨purchased 4, 4⟩ = none := by
  have hfails : (purchased 4).execAll ((migrations.drop 4).flatMap Migration.up) = none := by
    rcases hexec : (purchased 4).execAll ((migrations.drop 4).flatMap Migration.up) with _ | db'
    · rfl
    · have hadmits := (Database.execAll_eq_some_iff.mp hexec).2.1
      have hnil : purchase.rows "transaction_status" = [] :=
        Database.eq_nil_of_addColumn (dropTable_not_mem_up 4 (by decide)).1
          (created_at_mem_up 4 (by decide)).1 hadmits
      cases hnil
  refine ⟨reached_purchased (by decide) (by decide), ?_⟩
  simp only [migrateUp, DataSource.runMigrations, hfails, Option.bind_eq_bind, Option.bind_none]

/-! ## Down

Undoing the fifth migration ends with a table that never was, so it fails whatever is in the tables,
and nothing below it can be reached any more. Undoing the seventh fails when a purchase has no source
or no reference of the provider, which the seventh allows. -/

/-- Undoing a migration asks nothing of the rows, but for the seventh. -/
theorem admitsAll_down {rows : String → List (Row PgValue)} {k : ℕ} {migration : Migration}
    (hmigration : migrations[k]? = some migration) (hne : k ≠ 4) :
    Database.AdmitsAll rows migration.down ↔
      (k + 1 = 7 → ∀ row ∈ rows "transaction_status",
        row "source" ≠ none ∧ row "provider_ref_id" ≠ none) := by
  rcases k with _ | _ | _ | _ | _ | _ | _ | k
  · cases hmigration
    exact iff_of_true ⟨trivial, trivial, trivial, trivial⟩ (by omega)
  · cases hmigration
    exact iff_of_true ⟨trivial, trivial⟩ (by omega)
  · cases hmigration
    exact iff_of_true ⟨trivial, trivial⟩ (by omega)
  · cases hmigration
    exact iff_of_true ⟨trivial, trivial⟩ (by omega)
  · exact absurd rfl hne
  · cases hmigration
    exact iff_of_true ⟨trivial, trivial⟩ (by omega)
  · cases hmigration
    -- The two `SET NOT NULL`.
    constructor
    · rintro ⟨hprovider, hsource, -⟩ - row hrow
      exact ⟨hsource row hrow, hprovider row hrow⟩
    · intro h
      exact ⟨fun row hrow ↦ (h rfl row hrow).2, fun row hrow ↦ (h rfl row hrow).1, trivial⟩
  · cases hmigration

theorem migrateDown_eq_some_iff {db : PgDatabase} {k : ℕ} {orm : DataSource} :
    (∃ res, migrateDown ⟨db, k + 1⟩ = some (res, orm)) ↔ orm.executed = k ∧
      ∃ migration, migrations[k]? = some migration ∧
        db.execAll migration.down = some orm.database := by
  simp only [migrateDown, DataSource.undoLastMigration, Option.bind_eq_bind]
  rcases migrations[k]? with _ | migration
  · simp
  · rcases hexec : db.execAll migration.down with _ | database
    · simp [hexec]
    · obtain ⟨database', executed⟩ := orm
      simp [hexec, eq_comm, and_comm]

theorem Reached.of_migrateDown {k : ℕ} (hk : k < migrations.length) {db : PgDatabase}
    (h : Reached (k + 1) db) {res : Js} {orm : DataSource}
    (hdown : migrateDown ⟨db, k + 1⟩ = some (res, orm)) :
    orm.executed = k ∧ Reached k orm.database ∧ k ≠ 4 := by
  obtain ⟨hexecuted, migration, hmigration, hexec⟩ := migrateDown_eq_some_iff.mp ⟨res, hdown⟩
  have hschema := (Database.execAll_eq_some_iff.mp hexec).1
  have hafter := schemaAfter_down hk hmigration
  rw [h.schema, Option.bind_some, hschema] at hafter
  split at hafter
  · cases hafter
  · next hne => exact ⟨hexecuted, ⟨hafter.symm, Database.legal_execAll h.legal hexec⟩, hne⟩

theorem migrateDown_restores_iff {k : ℕ} (hk : k < migrations.length) {db : PgDatabase}
    (h : Reached (k + 1) db) :
    (∃ res db', migrateDown ⟨db, k + 1⟩ = some (res, ⟨db', k⟩) ∧ Reached k db') ↔
      k + 1 ≠ 5 ∧ (k + 1 = 7 → ∀ row ∈ db.rows "transaction_status",
        row "source" ≠ none ∧ row "provider_ref_id" ≠ none) := by
  constructor
  · rintro ⟨res, db', hdown, -⟩
    have hne := (h.of_migrateDown hk hdown).2.2
    obtain ⟨-, migration, hmigration, hexec⟩ := migrateDown_eq_some_iff.mp ⟨res, hdown⟩
    have hadmits := (Database.execAll_eq_some_iff.mp hexec).2.1
    exact ⟨by omega, (admitsAll_down hmigration hne).mp hadmits⟩
  · rintro ⟨hne, hrows⟩
    have hne : k ≠ 4 := by omega
    have hmigration : migrations[k]? = some migrations[k] := List.getElem?_eq_getElem hk
    have hafter := schemaAfter_down hk hmigration
    rw [if_neg hne, h.schema, Option.bind_some] at hafter
    obtain ⟨schema, hschema⟩ := Option.isSome_iff_exists.mp
      (isSome_schemaAfter (Nat.le_of_lt hk))
    rw [hschema] at hafter
    have hexec : db.execAll migrations[k].down =
        some ⟨schema, Database.rowsAfterAll db.rows migrations[k].down⟩ :=
      Database.execAll_eq_some_iff.mpr ⟨hafter, (admitsAll_down hmigration hne).mpr hrows, rfl⟩
    have hdown : ∃ res, migrateDown ⟨db, k + 1⟩ =
        some (res, ⟨⟨schema, Database.rowsAfterAll db.rows migrations[k].down⟩, k⟩) :=
      migrateDown_eq_some_iff.mpr ⟨rfl, migrations[k], hmigration, hexec⟩
    obtain ⟨res, hdown⟩ := hdown
    exact ⟨res, _, hdown, (h.of_migrateDown hk hdown).2.1⟩

/-- `migrateDown`, `n` times. -/
def undo : ℕ → DataSource → Option DataSource
  | 0, orm => some orm
  | n + 1, orm => (migrateDown orm).bind fun (_, orm) ↦ undo n orm

/-- Undoing one by one comes to the empty schema from below the fifth migration only. -/
theorem undo_iff {k : ℕ} (hk : k ≤ migrations.length) {db : PgDatabase} (h : Reached k db) :
    (∃ db', undo k ⟨db, k⟩ = some ⟨db', 0⟩ ∧ db'.schema = Schema.empty) ↔ k ≤ 4 := by
  induction k generalizing db with
  | zero =>
    have hempty : db.schema = Schema.empty := (Option.some_inj.mp h.schema).symm
    exact iff_of_true ⟨db, rfl, hempty⟩ (Nat.zero_le 4)
  | succ k ih =>
    constructor
    · rintro ⟨db', hundo, hempty⟩
      obtain ⟨⟨res, orm⟩, hdown, hrest⟩ := Option.bind_eq_some_iff.mp hundo
      obtain ⟨hexecuted, hreached, hne⟩ := h.of_migrateDown hk hdown
      obtain ⟨database, executed⟩ := orm
      simp only at hexecuted hreached hrest
      subst hexecuted
      have hle := (ih (Nat.le_of_lt hk) hreached).mp ⟨db', hrest, hempty⟩
      omega
    · intro hle
      obtain ⟨res, db₁, hdown, hreached⟩ :=
        (migrateDown_restores_iff hk h).mpr ⟨by omega, by omega⟩
      obtain ⟨db', hrest, hempty⟩ := (ih (Nat.le_of_lt hk) hreached).mpr (by omega)
      exact ⟨db', Option.bind_eq_some_iff.mpr ⟨_, hdown, hrest⟩, hempty⟩

/-- Each undo step restores the schema before it, but for the fifth migration, and for the seventh
when a purchase has no source or no reference of the provider; so all of it can be undone as long as
the fifth has not been run. -/
theorem migrateDown_iff {k : ℕ} (hk : k ≤ migrations.length) {db : PgDatabase} (h : Reached k db) :
    (∀ before, k = before + 1 →
        ((∃ res db', migrateDown ⟨db, k⟩ = some (res, ⟨db', before⟩) ∧ Reached before db') ↔
          k ≠ 5 ∧ (k = 7 → ∀ row ∈ db.rows "transaction_status",
            row "source" ≠ none ∧ row "provider_ref_id" ≠ none))) ∧
      ((∃ db', undo k ⟨db, k⟩ = some ⟨db', 0⟩ ∧ db'.schema = Schema.empty) ↔ k ≤ 4) := by
  refine ⟨?_, undo_iff hk h⟩
  rintro before rfl
  exact migrateDown_restores_iff hk h

theorem migrateDown_iff_purchase :
    (∃ res db', migrateDown ⟨purchased 4, 4⟩ = some (res, ⟨db', 3⟩) ∧ Reached 3 db') ∧
      ∃ db', undo 4 ⟨purchased 4, 4⟩ = some ⟨db', 0⟩ ∧ db'.schema = Schema.empty := by
  have hk : 4 ≤ migrations.length := by decide
  have hreached : Reached 4 (purchased 4) := reached_purchased hk (by decide)
  obtain ⟨hstep, hall⟩ := migrateDown_iff hk hreached
  exact ⟨(hstep 3 rfl).mpr ⟨by decide, by decide⟩, hall.mpr (Nat.le_refl 4)⟩

/-- After the fifth migration nothing can be undone, even where there are no rows. -/
theorem migrateDown_fails :
    Reached 5 ⟨(schemaAfter 5).getD Schema.empty, fun _ ↦ []⟩ ∧
      migrateDown ⟨⟨(schemaAfter 5).getD Schema.empty, fun _ ↦ []⟩, 5⟩ = none := by
  have hreached : Reached 5 ⟨(schemaAfter 5).getD Schema.empty, fun _ ↦ []⟩ := by
    have hk : 5 ≤ migrations.length := by decide
    obtain ⟨schema, hschema⟩ := Option.isSome_iff_exists.mp (isSome_schemaAfter hk)
    rw [hschema, Option.getD_some]
    exact reached_of_empty hschema
  refine ⟨hreached, ?_⟩
  rcases hdown : migrateDown ⟨⟨(schemaAfter 5).getD Schema.empty, fun _ ↦ []⟩, 5⟩ with _ | ⟨res, orm⟩
  · rfl
  · exact absurd rfl (hreached.of_migrateDown (by decide) hdown).2.2

end PaymentService
