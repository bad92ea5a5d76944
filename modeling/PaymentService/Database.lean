import PaymentService.Entities
import PaymentService.Sql.Values
import PaymentService.Table.Keyed
import Mathlib.Algebra.Ring.Int.Defs

/-!
# The database behind the repositories

`Tables` are the rows of the two tables. Which contents Postgres admits is `Tables.Legal`: primary
keys, the unique index on `source`, the foreign key of the log and the ranges of the columns. A
`Db` carries the proof, so a write that would break a constraint has no result: `Db.save` computes
the tables after the write and returns nothing when they are not legal. Since a `save` is one
transaction, a rejected one leaves the tables as they were.

What a column makes of the value it is given comes first. A text is cut to the length of its column
when only blanks are cut off, and is refused when anything else would be, or when it has the character
`NUL`; so the row after a save can differ from the object that was saved.

Saving an object whose `transactionLogs` is set attaches the listed entries to the row and clears
the foreign key of the entries that were attached before and are not listed. Properties the object
does not have are left alone.
-/

namespace PaymentService

/-! ## Columns -/

open Sql (varchar FitsVarchar)

/-- A `jsonb` column takes a value without the character `NUL`. -/
def jsonb (v : Js) : Option Js := if v.noNul then some v else none

theorem jsonb_of_noNul {v : Js} (h : v.noNul = true) : jsonb v = some v := if_pos h

theorem jsonb_eq_some_iff {v kept : Js} : jsonb v = some kept ↔ v.noNul = true ∧ v = kept := by
  unfold jsonb
  split <;> simp [*]

namespace Column

variable {α : Type}

/-- Write a nullable column. -/
def write (old : Option α) : Column α → Option α
  | undefined => old
  | null => none
  | value a => some a

/-- Write a `NOT NULL` column of an existing row, where `accept` is what the column makes of a value;
there is no result for `NULL`, nor when the value is refused. -/
def writeRequired (accept : α → Option α) (old : α) : Column α → Option α
  | undefined => some old
  | null => none
  | value a => accept a

/-- Write a nullable column of texts. -/
def writeText (n : ℕ) (old : Option String) : Column String → Option (Option String)
  | undefined => some old
  | null => some none
  | value s => (varchar n s).map some

/-- The value of a `NOT NULL` column without default in a new row. -/
def insertRequired (accept : α → Option α) : Column α → Option α
  | undefined => none
  | null => none
  | value a => accept a

@[simp] theorem write_undefined (old : Option α) : write old undefined = old := rfl
@[simp] theorem write_null (old : Option α) : write old null = none := rfl
@[simp] theorem write_value (old : Option α) (a : α) : write old (value a) = some a := rfl

section Required

variable (accept : α → Option α) (old a : α)

@[simp] theorem writeRequired_undefined : writeRequired accept old undefined = some old := rfl
@[simp] theorem writeRequired_null : writeRequired accept old null = none := rfl
@[simp] theorem writeRequired_value : writeRequired accept old (value a) = accept a := rfl

@[simp] theorem insertRequired_value : insertRequired accept (value a) = accept a := rfl

end Required

@[simp] theorem writeText_undefined (n : ℕ) (old : Option String) :
    writeText n old undefined = some old := rfl

@[simp] theorem writeText_null (n : ℕ) (old : Option String) :
    writeText n old null = some none := rfl

@[simp] theorem writeText_value (n : ℕ) (old : Option String) (s : String) :
    writeText n old (value s) = (varchar n s).map some := rfl

theorem isSome_writeText (n : ℕ) (old old' : Option String) (c : Column String) :
    (writeText n old c).isSome = (writeText n old' c).isSome := by
  cases c <;> rfl

theorem fits_of_writeRequired {n : ℕ} {old kept : String} {c : Column String}
    (hold : FitsVarchar n old) (h : writeRequired (varchar n) old c = some kept) :
    FitsVarchar n kept := by
  cases c with
  | undefined => exact Option.some_inj.mp h ▸ hold
  | null => cases h
  | value s => exact Sql.fits_of_varchar h

theorem fits_of_writeText {n : ℕ} {old kept : Option String} {c : Column String}
    (hold : ∀ s ∈ old, FitsVarchar n s) (h : writeText n old c = some kept) :
    ∀ s ∈ kept, FitsVarchar n s := by
  intro s hs
  obtain rfl : kept = some s := hs
  cases c with
  | undefined => exact hold s (Option.some_inj.mp h)
  | null => cases h
  | value t =>
    obtain ⟨kept, hkept, heq⟩ := Option.map_eq_some_iff.mp h
    exact Option.some_inj.mp heq ▸ Sql.fits_of_varchar hkept

theorem writeText_ofOption {n : ℕ} (old : Option String) {a : Option String}
    (h : ∀ s ∈ a, FitsVarchar n s) : writeText n old (ofOption a) = some a := by
  cases a with
  | none => rfl
  | some s => rw [ofOption, writeText_value, Sql.varchar_of_fits (h s rfl), Option.map_some]

end Column

/-- An `integer` column accepts a number when it is one. -/
def toInteger (q : ℚ) : Option ℤ := if q.den = 1 then some q.num else none

@[simp] theorem toInteger_intCast (n : ℤ) : toInteger (n : ℚ) = some n := by
  simp [toInteger]

theorem toInteger_eq_some_iff {q : ℚ} {n : ℤ} : toInteger q = some n ↔ (n : ℚ) = q := by
  constructor
  · intro h
    unfold toInteger at h
    split at h
    · next hden =>
      obtain rfl := Option.some_inj.mp h
      exact Rat.den_eq_one_iff q |>.mp hden
    · cases h
  · rintro rfl
    exact toInteger_intCast n

def Column.writeInteger (old : ℤ) : Column ℚ → Option ℤ
  | .undefined => some old
  | .null => none
  | .value q => toInteger q

@[simp] theorem Column.writeInteger_undefined (old : ℤ) :
    Column.writeInteger old .undefined = some old := rfl

@[simp] theorem Column.writeInteger_value (old : ℤ) (q : ℚ) :
    Column.writeInteger old (.value q) = toInteger q := rfl

/-! ## Rows after a write -/

/-- The row after saving an object for it; nothing when a `NOT NULL` column is set to `null`. -/
def TransactionStatus.update (row : TransactionStatus) (o : StatusObject) :
    Option TransactionStatus := do
  let paymentType ← o.paymentType.writeRequired (varchar 50) row.paymentType
  let amount ← o.amount.writeInteger row.amount
  let currency ← o.currency.writeRequired (varchar 5) row.currency
  let source ← o.source.writeText 50 row.source
  let description ← o.description.writeText 255 row.description
  let userRefId ← o.userRefId.writeRequired (varchar 50) row.userRefId
  let provider ← o.provider.writeRequired (varchar 10) row.provider
  let providerRefId ← o.providerRefId.writeText 50 row.providerRefId
  let productId ← o.productId.writeRequired (varchar 255) row.productId
  let status ← o.status.writeRequired (varchar 10) row.status
  let metadata ← o.metadata.writeRequired jsonb row.metadata
  let createdAt ← o.createdAt.writeRequired some row.createdAt
  some
    { id := row.id, paymentType, amount, currency, source, description, userRefId, provider
      providerRefId, productId, status, metadata, createdAt
      updatedAt := o.updatedAt.write row.updatedAt }

/-- The new row an object makes. The `jsonb` column is the only required one with a default. -/
def StatusObject.insert (o : StatusObject) (id : String) : Option TransactionStatus := do
  let paymentType ← o.paymentType.insertRequired (varchar 50)
  let amount ← (o.amount.insertRequired some).bind toInteger
  let currency ← o.currency.insertRequired (varchar 5)
  let source ← o.source.writeText 50 none
  let description ← o.description.writeText 255 none
  let userRefId ← o.userRefId.insertRequired (varchar 50)
  let provider ← o.provider.insertRequired (varchar 10)
  let providerRefId ← o.providerRefId.writeText 50 none
  let productId ← o.productId.insertRequired (varchar 255)
  let status ← o.status.insertRequired (varchar 10)
  let metadata ← o.metadata.writeRequired jsonb (.obj [])
  let createdAt ← o.createdAt.insertRequired some
  some
    { id, paymentType, amount, currency, source, description, userRefId, provider, providerRefId
      productId, status, metadata, createdAt
      updatedAt := o.updatedAt.write none }

/-- What the columns of a row are after the save of an object for it. -/
structure TransactionStatus.Updated (row : TransactionStatus) (o : StatusObject)
    (row' : TransactionStatus) : Prop where
  id : row'.id = row.id
  paymentType : o.paymentType.writeRequired (varchar 50) row.paymentType = some row'.paymentType
  amount : o.amount.writeInteger row.amount = some row'.amount
  currency : o.currency.writeRequired (varchar 5) row.currency = some row'.currency
  source : o.source.writeText 50 row.source = some row'.source
  description : o.description.writeText 255 row.description = some row'.description
  userRefId : o.userRefId.writeRequired (varchar 50) row.userRefId = some row'.userRefId
  provider : o.provider.writeRequired (varchar 10) row.provider = some row'.provider
  providerRefId : o.providerRefId.writeText 50 row.providerRefId = some row'.providerRefId
  productId : o.productId.writeRequired (varchar 255) row.productId = some row'.productId
  status : o.status.writeRequired (varchar 10) row.status = some row'.status
  metadata : o.metadata.writeRequired jsonb row.metadata = some row'.metadata
  createdAt : o.createdAt.writeRequired some row.createdAt = some row'.createdAt
  updatedAt : row'.updatedAt = o.updatedAt.write row.updatedAt

theorem TransactionStatus.updated {row row' : TransactionStatus} {o : StatusObject}
    (h : row.update o = some row') : row.Updated o row' := by
  simp only [update, bind, Option.bind_eq_some_iff, Option.some.injEq] at h
  obtain ⟨paymentType, hpaymentType, amount, hamount, currency, hcurrency, source, hsource,
    description, hdescription, userRefId, huserRefId, provider, hprovider, providerRefId,
    hproviderRefId, productId, hproductId, status, hstatus, metadata, hmetadata, createdAt,
    hcreatedAt, rfl⟩ := h
  exact ⟨rfl, hpaymentType, hamount, hcurrency, hsource, hdescription, huserRefId, hprovider,
    hproviderRefId, hproductId, hstatus, hmetadata, hcreatedAt, rfl⟩

/-- What the columns of the new row are that an object makes. -/
structure StatusObject.Inserted (o : StatusObject) (id : String) (row : TransactionStatus) :
    Prop where
  id : row.id = id
  paymentType : o.paymentType.insertRequired (varchar 50) = some row.paymentType
  amount : (o.amount.insertRequired some).bind toInteger = some row.amount
  currency : o.currency.insertRequired (varchar 5) = some row.currency
  source : o.source.writeText 50 none = some row.source
  description : o.description.writeText 255 none = some row.description
  userRefId : o.userRefId.insertRequired (varchar 50) = some row.userRefId
  provider : o.provider.insertRequired (varchar 10) = some row.provider
  providerRefId : o.providerRefId.writeText 50 none = some row.providerRefId
  productId : o.productId.insertRequired (varchar 255) = some row.productId
  status : o.status.insertRequired (varchar 10) = some row.status
  metadata : o.metadata.writeRequired jsonb (.obj []) = some row.metadata
  createdAt : o.createdAt.insertRequired some = some row.createdAt
  updatedAt : row.updatedAt = o.updatedAt.write none

theorem StatusObject.inserted {o : StatusObject} {id : String} {row : TransactionStatus}
    (h : o.insert id = some row) : o.Inserted id row := by
  simp only [insert, bind, Option.bind_eq_some_iff, Option.some.injEq] at h
  obtain ⟨paymentType, hpaymentType, amount, ⟨given, hgiven, hamount⟩, currency, hcurrency, source,
    hsource, description, hdescription, userRefId, huserRefId, provider, hprovider, providerRefId,
    hproviderRefId, productId, hproductId, status, hstatus, metadata, hmetadata, createdAt,
    hcreatedAt, rfl⟩ := h
  exact ⟨rfl, hpaymentType, Option.bind_eq_some_iff.mpr ⟨given, hgiven, hamount⟩, hcurrency,
    hsource, hdescription, huserRefId, hprovider, hproviderRefId, hproductId, hstatus, hmetadata,
    hcreatedAt, rfl⟩

/-! ## Log entries after a write -/

/-- The new row of the log, attached to the saved transaction. -/
def NewLog.insert (log : NewLog) (statusId uuid : String) : Option TransactionLog := do
  let status ← log.status.insertRequired (varchar 10)
  let channel ← log.channel.writeText 10 none
  let eventKey ← log.eventKey.writeText 20 none
  some
    { id := uuid, status, channel, eventKey, transactionStatusId := some statusId
      createdAt := log.createdAt, updatedAt := none }

/-- Insert the new entries of a saved array, each under an identifier the database generates. -/
def insertLogs (statusId : String) : (ℕ → String) → List NewLog → Option (List TransactionLog)
  | _, [] => some []
  | uuid, log :: logs => do
    let entry ← log.insert statusId (uuid 0)
    let entries ← insertLogs statusId (fun n ↦ uuid (n + 1)) logs
    some (entry :: entries)

/-- Attach an entry that is listed and detach one that is attached but not listed. -/
def relink (statusId : String) (loaded : List TransactionLog) (log : TransactionLog) :
    TransactionLog :=
  if log.id ∈ loaded.map (·.id) then { log with transactionStatusId := some statusId }
  else if log.transactionStatusId = some statusId then { log with transactionStatusId := none }
  else log

theorem relink_eq (statusId : String) (loaded : List TransactionLog) (log : TransactionLog) :
    ∃ fk, relink statusId loaded log = { log with transactionStatusId := fk } := by
  unfold relink
  split
  · exact ⟨_, rfl⟩
  · split
    · exact ⟨_, rfl⟩
    · exact ⟨log.transactionStatusId, rfl⟩

@[simp] theorem relink_id (statusId : String) (loaded : List TransactionLog)
    (log : TransactionLog) : (relink statusId loaded log).id = log.id := by
  obtain ⟨fk, h⟩ := relink_eq statusId loaded log
  rw [h]

/-- Relinking the entries of one row keeps what is attached to another, up to entries that were
listed. -/
theorem filter_map_relink_of_ne {statusId id : String} (hid : id ≠ statusId)
    (logs : List TransactionLog) :
    (logs.map (relink statusId [])).filter (fun log ↦ log.transactionStatusId = some id)
      = logs.filter fun log ↦ log.transactionStatusId = some id := by
  induction logs with
  | nil => rfl
  | cons log logs ih =>
    rw [List.map_cons, List.filter_cons, List.filter_cons, ih]
    by_cases hs : log.transactionStatusId = some statusId
    · simp [relink, hs, Ne.symm hid]
    · simp [relink, hs]

/-! ## The tables -/

structure Tables where
  /-- `transaction_status`. -/
  statuses : List TransactionStatus
  /-- `transaction_log`. -/
  logs : List TransactionLog

/-- Every column holds a value of its type. -/
structure TransactionStatus.Fits (row : TransactionStatus) : Prop where
  id : Sql.Uuid.read row.id = some row.id
  paymentType : FitsVarchar 50 row.paymentType
  amount : -2 ^ 31 ≤ row.amount ∧ row.amount < 2 ^ 31
  currency : FitsVarchar 5 row.currency
  source : ∀ s ∈ row.source, FitsVarchar 50 s
  description : ∀ s ∈ row.description, FitsVarchar 255 s
  userRefId : FitsVarchar 50 row.userRefId
  provider : FitsVarchar 10 row.provider
  providerRefId : ∀ s ∈ row.providerRefId, FitsVarchar 50 s
  productId : FitsVarchar 255 row.productId
  status : FitsVarchar 10 row.status
  metadata : row.metadata.noNul = true

structure TransactionLog.Fits (log : TransactionLog) : Prop where
  status : FitsVarchar 10 log.status
  channel : ∀ s ∈ log.channel, FitsVarchar 10 s
  eventKey : ∀ s ∈ log.eventKey, FitsVarchar 20 s

theorem TransactionStatus.Updated.fits {row row' : TransactionStatus} {o : StatusObject}
    (h : row.Updated o row') (hrow : row.Fits)
    (hamount : -2 ^ 31 ≤ row'.amount ∧ row'.amount < 2 ^ 31) : row'.Fits where
  id := by rw [h.id]; exact hrow.id
  paymentType := Column.fits_of_writeRequired hrow.paymentType h.paymentType
  amount := hamount
  currency := Column.fits_of_writeRequired hrow.currency h.currency
  source := Column.fits_of_writeText hrow.source h.source
  description := Column.fits_of_writeText hrow.description h.description
  userRefId := Column.fits_of_writeRequired hrow.userRefId h.userRefId
  provider := Column.fits_of_writeRequired hrow.provider h.provider
  providerRefId := Column.fits_of_writeText hrow.providerRefId h.providerRefId
  productId := Column.fits_of_writeRequired hrow.productId h.productId
  status := Column.fits_of_writeRequired hrow.status h.status
  metadata := by
    have hwritten := h.metadata
    rcases hcol : o.metadata with _ | _ | v
    · rw [hcol, Column.writeRequired_undefined, Option.some.injEq] at hwritten
      rw [← hwritten]
      exact hrow.metadata
    · rw [hcol] at hwritten
      cases hwritten
    · rw [hcol, Column.writeRequired_value, jsonb_eq_some_iff] at hwritten
      rw [← hwritten.2]
      exact hwritten.1

instance (row : TransactionStatus) : Decidable row.Fits :=
  decidable_of_iff
    (Sql.Uuid.read row.id = some row.id ∧ FitsVarchar 50 row.paymentType ∧
      (-2 ^ 31 ≤ row.amount ∧ row.amount < 2 ^ 31) ∧ FitsVarchar 5 row.currency ∧
      (∀ s ∈ row.source, FitsVarchar 50 s) ∧ (∀ s ∈ row.description, FitsVarchar 255 s) ∧
      FitsVarchar 50 row.userRefId ∧ FitsVarchar 10 row.provider ∧
      (∀ s ∈ row.providerRefId, FitsVarchar 50 s) ∧ FitsVarchar 255 row.productId ∧
      FitsVarchar 10 row.status ∧ row.metadata.noNul = true)
    ⟨fun ⟨h1, h2, h3, h4, h5, h6, h7, h8, h9, h10, h11, h12⟩ ↦
        ⟨h1, h2, h3, h4, h5, h6, h7, h8, h9, h10, h11, h12⟩,
      fun ⟨h1, h2, h3, h4, h5, h6, h7, h8, h9, h10, h11, h12⟩ ↦
        ⟨h1, h2, h3, h4, h5, h6, h7, h8, h9, h10, h11, h12⟩⟩

instance (log : TransactionLog) : Decidable log.Fits :=
  decidable_of_iff
    (FitsVarchar 10 log.status ∧ (∀ s ∈ log.channel, FitsVarchar 10 s) ∧
      ∀ s ∈ log.eventKey, FitsVarchar 20 s)
    ⟨fun ⟨h1, h2, h3⟩ ↦ ⟨h1, h2, h3⟩, fun ⟨h1, h2, h3⟩ ↦ ⟨h1, h2, h3⟩⟩

namespace Tables

/-- The constraints of the schema. -/
structure Legal (t : Tables) : Prop where
  statusIds : (t.statuses.map (·.id)).Nodup
  /-- The unique index on `source`; rows without a source do not take part. -/
  sources : (t.statuses.filterMap (·.source)).Nodup
  logIds : (t.logs.map (·.id)).Nodup
  statusFits : ∀ row ∈ t.statuses, row.Fits
  logFits : ∀ log ∈ t.logs, log.Fits
  /-- The foreign key of the log. -/
  foreignKeys : ∀ log ∈ t.logs, ∀ id ∈ log.transactionStatusId, id ∈ t.statuses.map (·.id)

instance (t : Tables) : Decidable t.Legal :=
  decidable_of_iff
    ((t.statuses.map (·.id)).Nodup ∧ (t.statuses.filterMap (·.source)).Nodup ∧
      (t.logs.map (·.id)).Nodup ∧ (∀ row ∈ t.statuses, row.Fits) ∧ (∀ log ∈ t.logs, log.Fits) ∧
      ∀ log ∈ t.logs, ∀ id ∈ log.transactionStatusId, id ∈ t.statuses.map (·.id))
    ⟨fun ⟨h1, h2, h3, h4, h5, h6⟩ ↦ ⟨h1, h2, h3, h4, h5, h6⟩,
      fun ⟨h1, h2, h3, h4, h5, h6⟩ ↦ ⟨h1, h2, h3, h4, h5, h6⟩⟩

/-- The rows of `transaction_status` after a save, with the identifier of the saved row. -/
def writeStatus (t : Tables) (o : StatusObject) (uuid : String) :
    Option (String × List TransactionStatus) :=
  match o.id with
  | none => (o.insert uuid).map fun row ↦ (uuid, t.statuses ++ [row])
  | some id =>
    match Keyed.find TransactionStatus.id id t.statuses with
    -- An identifier that is not in the table makes a new row.
    | none => (o.insert id).map fun row ↦ (id, t.statuses ++ [row])
    | some row =>
      (row.update o).map fun row' ↦ (id, Keyed.replace TransactionStatus.id id row' t.statuses)

/-- The rows of `transaction_log` after a save, with the saved array. -/
def writeLogs (t : Tables) (id : String) (uuid : ℕ → String) :
    Option LogArray → Option (List TransactionLog × List TransactionLog)
  | none => some ([], t.logs)
  | some array =>
    (insertLogs id uuid array.created).map fun created ↦
      (array.loaded ++ created, t.logs.map (relink id array.loaded) ++ created)

/-- The tables after `save`, before the constraints are checked. -/
def save (t : Tables) (o : StatusObject) (uuid : ℕ → String) : Option (SavedStatus × Tables) := do
  -- The first generated identifier is for the row, the others are for the entries.
  let (id, statuses) ← t.writeStatus o (uuid 0)
  let (saved, logs) ← t.writeLogs id (fun n ↦ uuid (n + 1)) o.transactionLogs
  some (⟨id, saved⟩, ⟨statuses, logs⟩)

end Tables

/-! ## The database -/

/-- Tables that meet the constraints. -/
structure Db extends Tables where
  legal : toTables.Legal

namespace Db

/-- The freshly migrated database. -/
def empty : Db := ⟨⟨[], []⟩, by decide⟩

/-- The row with a given primary key, as the database prints it. -/
def row? (db : Db) (id : String) : Option TransactionStatus :=
  Keyed.find TransactionStatus.id id db.statuses

/-- The row that a condition on the primary key finds: the column compares values, so every way to
write the identifier will do. -/
def find? (db : Db) (id : String) : Option TransactionStatus := (Sql.Uuid.read id).bind db.row?

/-- The log entries attached to a row. -/
def attached (db : Db) (id : String) : List TransactionLog :=
  db.logs.filter fun log ↦ log.transactionStatusId = some id

/-- `save`: one transaction, rejected when a constraint fails. -/
def save (db : Db) (o : StatusObject) (uuid : ℕ → String) : Option (SavedStatus × Db) := do
  let (saved, t) ← db.toTables.save o uuid
  if h : t.Legal then some (saved, ⟨t, h⟩) else none

/-- `findOne` by source with its logs. A condition that is `undefined` or `null` is dropped, so
that every row satisfies the query; `pick` is the choice the database then makes. -/
def findOneBySource (db : Db) (source : Option String) (pick : ℕ) :
    Option (TransactionStatus × List TransactionLog) :=
  let candidates :=
    match source with
    | none => db.statuses
    | some s => db.statuses.filter fun row ↦ row.source = some s
  candidates[pick % candidates.length]?.map fun row ↦ (row, db.attached row.id)

/-! ## What a save does to the rows -/

variable {db db' : Db} {o : StatusObject} {uuid : ℕ → String} {saved : SavedStatus}

/-- A completed save wrote the rows and the log entries it computed. -/
theorem save_eq_some (h : db.save o uuid = some (saved, db')) :
    db.writeStatus o (uuid 0) = some (saved.id, db'.statuses) ∧
      db.writeLogs saved.id (fun n ↦ uuid (n + 1)) o.transactionLogs
        = some (saved.transactionLogs, db'.logs) := by
  simp only [save, Tables.save, bind, Option.bind_eq_some_iff, Prod.exists] at h
  obtain ⟨s, t, ⟨id, statuses, hstatus, array, logs, hlogs, heq⟩, hdb⟩ := h
  split at hdb
  · simp only [Option.some.injEq, Prod.mk.injEq] at heq hdb
    obtain ⟨rfl, rfl⟩ := heq
    obtain ⟨rfl, rfl⟩ := hdb
    exact ⟨hstatus, hlogs⟩
  · exact absurd hdb (by simp)

theorem row?_eq_some_iff {id : String} {row : TransactionStatus} :
    db.row? id = some row ↔ row ∈ db.statuses ∧ row.id = id :=
  Keyed.find_eq_some_iff db.legal.statusIds

theorem find?_eq_some_iff {id : String} {row : TransactionStatus} :
    db.find? id = some row ↔ Sql.Uuid.read id = some row.id ∧ db.row? row.id = some row := by
  rw [find?, Option.bind_eq_some_iff]
  constructor
  · rintro ⟨key, hkey, hrow⟩
    obtain ⟨-, rfl⟩ := row?_eq_some_iff.mp hrow
    exact ⟨hkey, hrow⟩
  · rintro ⟨hkey, hrow⟩
    exact ⟨row.id, hkey, hrow⟩

theorem fits_of_row? {id : String} {row : TransactionStatus} (h : db.row? id = some row) :
    row.Fits :=
  db.legal.statusFits row (row?_eq_some_iff.mp h).1

/-- What a save can do to the rows: a new row at the end, or the update of one row. -/
theorem writeStatus_cases {id : String} {statuses : List TransactionStatus}
    (h : db.writeStatus o (uuid 0) = some (id, statuses)) :
    (∃ row, o.insert id = some row ∧ statuses = db.statuses ++ [row] ∧
        (o.id = some id ∨ o.id = none)) ∨
      ∃ row row', o.id = some id ∧ db.row? id = some row ∧ row.update o = some row' ∧
        statuses = Keyed.replace TransactionStatus.id id row' db.statuses := by
  unfold Tables.writeStatus at h
  rcases ho : o.id with _ | k
  · simp only [ho, Option.map_eq_some_iff, Prod.mk.injEq] at h
    obtain ⟨row, hrow, rfl, rfl⟩ := h
    exact Or.inl ⟨row, hrow, rfl, Or.inr rfl⟩
  · rcases hk : Keyed.find TransactionStatus.id k db.statuses with _ | row
    · simp only [ho, hk, Option.map_eq_some_iff, Prod.mk.injEq] at h
      obtain ⟨row, hrow, rfl, rfl⟩ := h
      exact Or.inl ⟨row, hrow, rfl, Or.inl rfl⟩
    · simp only [ho, hk, Option.map_eq_some_iff, Prod.mk.injEq] at h
      obtain ⟨row', hrow', rfl, rfl⟩ := h
      exact Or.inr ⟨row, row', rfl, hk, hrow', rfl⟩

theorem row?_save_of_ne (h : db.save o uuid = some (saved, db')) {id : String}
    (hid : o.id ≠ some id) {row : TransactionStatus} (hrow : db.row? id = some row) :
    db'.row? id = some row := by
  obtain ⟨hstatus, -⟩ := save_eq_some h
  have hmem := row?_eq_some_iff.mp hrow
  rcases writeStatus_cases hstatus with ⟨new, -, hs, -⟩ | ⟨old, new, ho, hold, hupd, hs⟩
  · rw [row?_eq_some_iff, hs]
    exact ⟨List.mem_append_left _ hmem.1, hmem.2⟩
  · have hne : id ≠ saved.id := fun heq ↦ hid (by rw [ho, heq])
    have hnew : new.id = saved.id := by
      rw [(TransactionStatus.updated hupd).id, Keyed.key_of_find hold]
    rw [row?, hs, Keyed.find_replace_of_ne hne hnew]
    exact hrow

theorem row?_save_self (h : db.save o uuid = some (saved, db')) {id : String}
    (hid : o.id = some id) {row : TransactionStatus} (hrow : db.row? id = some row) :
    saved.id = id ∧ ∃ row', row.update o = some row' ∧ db'.row? id = some row' := by
  obtain ⟨hstatus, -⟩ := save_eq_some h
  rw [row?] at hrow
  simp only [Tables.writeStatus, hid, hrow, Option.map_eq_some_iff, Prod.mk.injEq] at hstatus
  obtain ⟨row', hupd, hsaved, hs⟩ := hstatus
  have hid' : row'.id = id := by
    rw [(TransactionStatus.updated hupd).id, Keyed.key_of_find hrow]
  refine ⟨hsaved.symm, row', hupd, ?_⟩
  rw [row?, ← hs]
  exact Keyed.find_replace_self hid' hrow

theorem row?_save_new (h : db.save o uuid = some (saved, db')) (hid : o.id = none) :
    ∃ row, o.insert saved.id = some row ∧ db'.row? saved.id = some row := by
  obtain ⟨hstatus, -⟩ := save_eq_some h
  rcases writeStatus_cases hstatus with ⟨row, hins, hs, -⟩ | ⟨_, _, hsome, -⟩
  · refine ⟨row, hins, row?_eq_some_iff.mpr ⟨?_, (StatusObject.inserted hins).id⟩⟩
    rw [hs]
    exact List.mem_append_right _ (List.mem_singleton_self row)
  · rw [hid] at hsome
    cases hsome

/-- Every row after a save was there before, or is the saved one. -/
theorem mem_statuses_save (h : db.save o uuid = some (saved, db')) {row' : TransactionStatus}
    (hrow : row' ∈ db'.statuses) :
    row' ∈ db.statuses ∨
      (o.insert row'.id = some row' ∧ (o.id = some row'.id ∨ o.id = none)) ∨
        ∃ row ∈ db.statuses, o.id = some row.id ∧ row.update o = some row' := by
  obtain ⟨hstatus, -⟩ := save_eq_some h
  rcases writeStatus_cases hstatus with ⟨new, hins, hs, hid⟩ | ⟨old, new, ho, hold, hupd, hs⟩
  · rw [hs, List.mem_append, List.mem_singleton] at hrow
    rcases hrow with hrow | rfl
    · exact Or.inl hrow
    · right; left
      rw [(StatusObject.inserted hins).id]
      exact ⟨hins, hid⟩
  · rw [hs] at hrow
    rcases Keyed.mem_replace hrow with rfl | ⟨hrow, -⟩
    · have hold' := row?_eq_some_iff.mp hold
      exact Or.inr (Or.inr ⟨old, hold'.1, by rw [ho, hold'.2], hupd⟩)
    · exact Or.inl hrow

/-! ## What a save does to the log -/

theorem mem_attached {id : String} {log : TransactionLog} :
    log ∈ db.attached id ↔ log ∈ db.logs ∧ log.transactionStatusId = some id := by
  simp [attached, List.mem_filter]

theorem attached_of_insertLogs {id : String} {uuid : ℕ → String} {logs : List NewLog}
    {created : List TransactionLog} (h : insertLogs id uuid logs = some created) :
    ∀ log ∈ created, log.transactionStatusId = some id := by
  induction logs generalizing uuid created with
  | nil =>
    simp only [insertLogs, Option.some.injEq] at h
    simp [← h]
  | cons new logs ih =>
    simp only [insertLogs, NewLog.insert, bind, Option.bind_eq_some_iff, Option.some.injEq] at h
    obtain ⟨entry, ⟨_, _, _, _, _, _, rfl⟩, entries, hrest, rfl⟩ := h
    intro log hlog
    rcases List.mem_cons.mp hlog with rfl | hlog
    · rfl
    · exact ih hrest log hlog

theorem filter_created_self {id : String} {created : List TransactionLog}
    (h : ∀ log ∈ created, log.transactionStatusId = some id) :
    created.filter (fun log ↦ log.transactionStatusId = some id) = created :=
  List.filter_eq_self.mpr fun log hlog ↦ by simp [h log hlog]

theorem filter_created_of_ne {id id' : String} (hid : id' ≠ id) {created : List TransactionLog}
    (h : ∀ log ∈ created, log.transactionStatusId = some id) :
    created.filter (fun log ↦ log.transactionStatusId = some id') = [] :=
  List.filter_eq_nil_iff.mpr fun log hlog ↦ by simp [h log hlog, Ne.symm hid]

/-- Saving exactly the entries that are attached, followed by new ones, detaches nothing. -/
theorem map_relink_attached (db : Db) (id : String) :
    db.logs.map (relink id (db.attached id)) = db.logs := by
  refine (List.map_congr_left fun log hlog ↦ ?_).trans db.logs.map_id
  by_cases hin : log.id ∈ (db.attached id).map (·.id)
  · obtain ⟨other, hother, heq⟩ := List.mem_map.mp hin
    obtain ⟨hmem, hfk⟩ := mem_attached.mp hother
    obtain rfl := List.inj_on_of_nodup_map db.legal.logIds hmem hlog heq
    rw [relink, if_pos hin, ← hfk, id_def]
  · have hout : log.transactionStatusId ≠ some id := fun hfk ↦
      hin (List.mem_map_of_mem (mem_attached.mpr ⟨hlog, hfk⟩))
    rw [relink, if_neg hin, if_neg hout, id_def]

/-- The entries attached to the saved row, when the saved array holds new entries only: those and
no others. -/
theorem attached_save_fresh (h : db.save o uuid = some (saved, db')) {logs : List NewLog}
    (hlogs : o.transactionLogs = some ⟨[], logs⟩) :
    ∃ created, insertLogs saved.id (fun n ↦ uuid (n + 1)) logs = some created ∧
      db'.attached saved.id = created ∧ ∀ id ≠ saved.id, db'.attached id = db.attached id := by
  obtain ⟨-, hwrite⟩ := save_eq_some h
  simp only [hlogs, Tables.writeLogs, Option.map_eq_some_iff, Prod.mk.injEq] at hwrite
  obtain ⟨created, hcreated, -, hl⟩ := hwrite
  have hfk := attached_of_insertLogs hcreated
  have hout : (db.logs.map (relink saved.id [])).filter
      (fun log ↦ log.transactionStatusId = some saved.id) = [] := by
    refine List.filter_eq_nil_iff.mpr fun log hlog ↦ ?_
    obtain ⟨old, -, rfl⟩ := List.mem_map.mp hlog
    rw [relink, if_neg (by simp)]
    split
    · simp
    · simpa
  refine ⟨created, hcreated, ?_, fun id hid ↦ ?_⟩
  · rw [attached, ← hl, List.filter_append, hout, List.nil_append, filter_created_self hfk]
  · rw [attached, ← hl, List.filter_append, filter_created_of_ne hid hfk, List.append_nil,
      filter_map_relink_of_ne hid, attached]

/-! ## The constraints after a row is rewritten -/

/-- A row keeps its identifier and an entry of it is added: what is left to check is what the row and
the entry bring. -/
theorem legal_rewritten_iff (row : TransactionStatus) (entry : TransactionLog)
    {old : TransactionStatus} {logs : List TransactionLog} (hold : db.row? row.id = some old)
    (hids : logs.map (·.id) = db.logs.map (·.id)) (hfits : ∀ log ∈ logs, log.Fits)
    (hkeys : ∀ log ∈ logs, ∀ id ∈ log.transactionStatusId, id ∈ db.statuses.map (·.id))
    (hentry : entry.transactionStatusId = some row.id) :
    (Tables.mk (Keyed.replace TransactionStatus.id row.id row db.statuses)
        (logs ++ [entry])).Legal ↔
      ((Keyed.replace TransactionStatus.id row.id row db.statuses).filterMap (·.source)).Nodup ∧
        row.Fits ∧ entry.Fits ∧ entry.id ∉ db.logs.map (·.id) := by
  obtain ⟨hmem, hid⟩ := row?_eq_some_iff.mp hold
  have hrowIds : (Keyed.replace TransactionStatus.id row.id row db.statuses).map (·.id) =
      db.statuses.map (·.id) := Keyed.map_key_replace TransactionStatus.id rfl db.statuses
  have hlogIds : (logs ++ [entry]).map (·.id) = db.logs.map (·.id) ++ [entry.id] := by
    rw [List.map_append, hids]
    rfl
  constructor
  · intro hl
    refine ⟨hl.sources, hl.statusFits row (Keyed.mem_replace_self TransactionStatus.id hmem hid),
      hl.logFits entry (List.mem_append_right _ (List.mem_singleton_self _)), ?_⟩
    have hnodup := hl.logIds
    rw [hlogIds, ← List.concat_eq_append, List.nodup_concat] at hnodup
    exact hnodup.1
  · rintro ⟨hsources, hrow, hlog, hfresh⟩
    constructor
    · rw [hrowIds]
      exact db.legal.statusIds
    · exact hsources
    · rw [hlogIds, ← List.concat_eq_append, List.nodup_concat]
      exact ⟨hfresh, db.legal.logIds⟩
    · intro other hother
      rcases Keyed.mem_replace hother with rfl | ⟨hother, -⟩
      · exact hrow
      · exact db.legal.statusFits other hother
    · intro log hin
      rcases List.mem_append.mp hin with hin | hin
      · exact hfits log hin
      · rw [List.mem_singleton.mp hin]
        exact hlog
    · intro log hin id hfk
      rw [hrowIds]
      rcases List.mem_append.mp hin with hin | hin
      · exact hkeys log hin id hfk
      · rw [List.mem_singleton.mp hin, hentry, Option.mem_some_iff] at hfk
        exact hfk ▸ hid ▸ List.mem_map_of_mem hmem

/-! ## Looking a row up by its source -/

private theorem getElem?_pick {α : Type} {l : List α} {a : α} (ha : a ∈ l)
    (huniq : ∀ b ∈ l, b = a) (pick : ℕ) : l[pick % l.length]? = some a := by
  have hlt : pick % l.length < l.length := Nat.mod_lt _ (List.length_pos_of_mem ha)
  rw [List.getElem?_eq_getElem hlt, huniq _ (List.getElem_mem hlt)]

theorem findOneBySource_eq_some_iff {source : String} {pick : ℕ} {row : TransactionStatus}
    {logs : List TransactionLog} :
    db.findOneBySource (some source) pick = some (row, logs) ↔
      row ∈ db.statuses ∧ row.source = some source ∧ logs = db.attached row.id := by
  simp only [findOneBySource, Option.map_eq_some_iff, Prod.mk.injEq]
  -- The candidates are the rows with the source, and the unique index leaves at most one of them.
  constructor
  · rintro ⟨found, hfound, rfl, rfl⟩
    have hmem := List.mem_filter.mp (List.mem_of_getElem? hfound)
    exact ⟨hmem.1, by simpa using hmem.2, rfl⟩
  · rintro ⟨hrow, hsource, rfl⟩
    refine ⟨row, getElem?_pick (List.mem_filter.mpr ⟨hrow, by simpa using hsource⟩) ?_ pick,
      rfl, rfl⟩
    intro other hother
    obtain ⟨hmem, hsrc⟩ := List.mem_filter.mp hother
    exact Keyed.eq_of_nodup_filterMap db.legal.sources hmem hrow (by simpa using hsrc) hsource

/-- Whatever the condition, the row that comes back is a row of the table, with its own logs. -/
theorem mem_of_findOneBySource {source : Option String} {pick : ℕ} {row : TransactionStatus}
    {logs : List TransactionLog} (h : db.findOneBySource source pick = some (row, logs)) :
    row ∈ db.statuses ∧ logs = db.attached row.id := by
  simp only [findOneBySource, Option.map_eq_some_iff, Prod.mk.injEq] at h
  obtain ⟨found, hfound, rfl, rfl⟩ := h
  have hmem := List.mem_of_getElem? hfound
  cases source with
  | none => exact ⟨hmem, rfl⟩
  | some s => exact ⟨(List.mem_filter.mp hmem).1, rfl⟩

theorem noNul_of_findOneBySource {source : Option String} {pick : ℕ}
    {found : TransactionStatus × List TransactionLog}
    (h : db.findOneBySource source pick = some found) : ∀ s ∈ source, Sql.NoNul s := by
  intro s hs
  obtain rfl : source = some s := hs
  obtain ⟨row, logs⟩ := found
  obtain ⟨hrow, hsource, -⟩ := findOneBySource_eq_some_iff.mp h
  exact ((db.legal.statusFits row hrow).source s hsource).noNul

end Db

end PaymentService
