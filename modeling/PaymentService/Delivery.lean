import PaymentService.Services.CallbackSteps

/-!
# One delivery

What the handling of a single event, with nothing in between, makes of the world. The first half is
about trust: which parts of the unauthenticated body and of the provider's answer decide. The second
half is about the acknowledgement: the handler answers `{ received: true }` to every event that
passes the validation, and the event has been recorded exactly when nothing went wrong on the way.
-/

namespace PaymentService

open Async CallbackService

variable {env : Env}

/-! ## When the save of an event is accepted -/

/-- The status that the columns keep of what an event says, if they take it. -/
def statusOf (env : Env) (data : Js) : Option String :=
  (env.column (data.prop "status")).insertRequired (Sql.varchar 10)

/-- The columns take the values an event brings, and the entry gets an identifier of its own. -/
structure Storable (env : Env) (db : Db) (uuid : ℕ → String) (data eventKey : Js) : Prop where
  status : (statusOf env data).isSome = true
  providerRefId : ((env.column (data.prop "id")).writeText 50 none).isSome = true
  eventKey : ((env.column eventKey).writeText 20 none).isSome = true
  fresh : uuid 1 ∉ db.logs.map (·.id)

theorem statusOf_eq_some_iff {data : Js} {status : String} : statusOf env data = some status ↔
    ∃ given, env.column (data.prop "status") = .value given ∧ Sql.varchar 10 given = some status := by
  unfold statusOf
  rcases env.column (data.prop "status") with _ | _ | given
  · exact ⟨fun h ↦ (by cases h), fun ⟨given, h, _⟩ ↦ (by cases h)⟩
  · exact ⟨fun h ↦ (by cases h), fun ⟨given, h, _⟩ ↦ (by cases h)⟩
  · exact ⟨fun h ↦ ⟨given, rfl, h⟩, fun ⟨_, h, hkept⟩ ↦ (Column.value.inj h) ▸ hkept⟩

theorem statusOf_of_success {data : Js}
    (h : data.prop "status" = .str ChargeStatuses.successful.value) :
    statusOf env data = some ChargeStatuses.successful.value :=
  statusOf_eq_some_iff.mpr ⟨_, by rw [h, Env.column_str], by decide⟩

section Storable

variable {db : Db} {uuid : ℕ → String} {info : TransactionStatus} {data eventKey : Js} {now : Date}
  {status : String}

/-- The row an accepted event leaves; `status` is what the column keeps of the event's. -/
def eventRow (env : Env) (info : TransactionStatus) (data : Js) (now : Date) (status : String) :
    TransactionStatus :=
  { info with
    status
    providerRefId :=
      ((env.column (data.prop "id")).writeText 50 info.providerRefId).getD info.providerRefId
    updatedAt := some now }

@[simp] theorem eventRow_id (env : Env) (info : TransactionStatus) (data : Js) (now : Date)
    (status : String) : (eventRow env info data now status).id = info.id := rfl

/-- The log entry an accepted event leaves. -/
def eventEntry (env : Env) (info : TransactionStatus) (eventKey : Js) (now : Date) (uuid : String)
    (status : String) : TransactionLog where
  id := uuid
  status := status
  channel := some "webhook"
  eventKey := ((env.column eventKey).writeText 20 none).getD none
  transactionStatusId := some info.id
  createdAt := now
  updatedAt := none

theorem update_recordedStatus (hinfo : info.Fits) (hstatus : statusOf env data = some status)
    (href : ((env.column (data.prop "id")).writeText 50 none).isSome = true)
    (logs : List TransactionLog) :
    info.update (recordedStatus env info logs data eventKey now) =
      some (eventRow env info data now status) := by
  obtain ⟨given, hgiven, hkept⟩ := statusOf_eq_some_iff.mp hstatus
  rw [Column.isSome_writeText 50 none info.providerRefId] at href
  obtain ⟨ref, href⟩ := Option.isSome_iff_exists.mp href
  simp [TransactionStatus.update, recordedStatus, TransactionStatus.toObject, hgiven, hkept, href,
    Sql.varchar_of_fits hinfo.paymentType, Sql.varchar_of_fits hinfo.currency,
    Sql.varchar_of_fits hinfo.userRefId, Sql.varchar_of_fits hinfo.provider,
    Sql.varchar_of_fits hinfo.productId, Column.writeText_ofOption _ hinfo.source,
    Column.writeText_ofOption _ hinfo.description, jsonb_of_noNul hinfo.metadata, eventRow]

theorem varchar_webhook : Sql.varchar 10 "webhook" = some "webhook" := by decide

theorem insertLogs_recordedStatus (hstatus : statusOf env data = some status)
    (hkey : ((env.column eventKey).writeText 20 none).isSome = true) :
    insertLogs info.id uuid [webhookLog env data eventKey now] =
      some [eventEntry env info eventKey now (uuid 0) status] := by
  obtain ⟨key, hkey⟩ := Option.isSome_iff_exists.mp hkey
  rw [statusOf] at hstatus
  simp [insertLogs, NewLog.insert, webhookLog, hstatus, hkey, varchar_webhook, eventEntry]

/-- The tables after the save of an event, before the constraints are checked. -/
def Tables.withEvent (t : Tables) (row : TransactionStatus) (entry : TransactionLog) : Tables where
  statuses := Keyed.replace TransactionStatus.id row.id row t.statuses
  logs := t.logs ++ [entry]

theorem save_recordedStatus (hinfo : db.row? info.id = some info)
    (hstatus : statusOf env data = some status)
    (href : ((env.column (data.prop "id")).writeText 50 none).isSome = true)
    (hkey : ((env.column eventKey).writeText 20 none).isSome = true) :
    db.toTables.save (recordedStatus env info (db.attached info.id) data eventKey now) uuid =
      some (⟨info.id, db.attached info.id ++ [eventEntry env info eventKey now (uuid 1) status]⟩,
        db.withEvent (eventRow env info data now status)
          (eventEntry env info eventKey now (uuid 1) status)) := by
  have hrow : Keyed.find TransactionStatus.id info.id db.statuses = some info := hinfo
  have hwritten : db.toTables.writeStatus
      (recordedStatus env info (db.attached info.id) data eventKey now) (uuid 0) =
        some (info.id, Keyed.replace TransactionStatus.id info.id
          (eventRow env info data now status) db.statuses) := by
    simp only [Tables.writeStatus, recordedStatus_id, hrow,
      update_recordedStatus (Db.fits_of_row? hinfo) hstatus href, Option.map_some]
  have hlogs : db.toTables.writeLogs info.id (fun n ↦ uuid (n + 1))
      (some ⟨db.attached info.id, [webhookLog env data eventKey now]⟩) =
        some (db.attached info.id ++ [eventEntry env info eventKey now (uuid 1) status],
          db.logs ++ [eventEntry env info eventKey now (uuid 1) status]) := by
    simp only [Tables.writeLogs, insertLogs_recordedStatus hstatus hkey, Option.map_some,
      Db.map_relink_attached]
  simp only [Tables.save, hwritten, recordedStatus_transactionLogs, bind, Option.bind_some, hlogs]
  rfl

theorem eventRow_fits (hinfo : info.Fits) (hstatus : statusOf env data = some status)
    (href : ((env.column (data.prop "id")).writeText 50 none).isSome = true) :
    (eventRow env info data now status).Fits := by
  have hupd : info.update (recordedStatus env info [] data .null now) =
      some (eventRow env info data now status) := update_recordedStatus hinfo hstatus href []
  exact (TransactionStatus.updated hupd).fits hinfo hinfo.amount

theorem eventKey_eventEntry (hkey : ((env.column eventKey).writeText 20 none).isSome = true)
    (uuid : String) : (env.column eventKey).writeText 20 none =
      some (eventEntry env info eventKey now uuid status).eventKey := by
  obtain ⟨key, hkey⟩ := Option.isSome_iff_exists.mp hkey
  rw [eventEntry, hkey, Option.getD_some]

theorem eventEntry_fits {given uuid : String} (hstatus : Sql.varchar 10 given = some status)
    (hkey : ((env.column eventKey).writeText 20 none).isSome = true) :
    (eventEntry env info eventKey now uuid status).Fits where
  status := Sql.fits_of_varchar hstatus
  channel s hs := by
    obtain rfl : "webhook" = s := by simpa [eventEntry] using hs
    decide
  eventKey := Column.fits_of_writeText (fun s hs ↦ by cases hs) (eventKey_eventEntry hkey uuid)

/-- The constraints of the schema after the save of an event come down to the new identifier. -/
theorem legal_withEvent (hinfo : db.row? info.id = some info)
    (hstatus : statusOf env data = some status)
    (href : ((env.column (data.prop "id")).writeText 50 none).isSome = true)
    (hkey : ((env.column eventKey).writeText 20 none).isSome = true) (uuid : String) :
    (db.withEvent (eventRow env info data now status)
        (eventEntry env info eventKey now uuid status)).Legal ↔ uuid ∉ db.logs.map (·.id) := by
  obtain ⟨hmem, -⟩ := Db.row?_eq_some_iff.mp hinfo
  obtain ⟨given, -, hkept⟩ := statusOf_eq_some_iff.mp hstatus
  -- The sources of the rows are as before.
  have hsources : (Keyed.replace TransactionStatus.id info.id (eventRow env info data now status)
      db.statuses).filterMap (·.source) = db.statuses.filterMap (·.source) := by
    refine Keyed.filterMap_replace fun row hrow hid ↦ ?_
    rw [List.inj_on_of_nodup_map db.legal.statusIds hrow hmem hid]
    rfl
  refine (Db.legal_rewritten_iff (eventRow env info data now status)
    (eventEntry env info eventKey now uuid status) hinfo rfl db.legal.logFits
    db.legal.foreignKeys rfl).trans ?_
  rw [eventRow_id, hsources]
  constructor
  · rintro ⟨-, -, -, hfresh⟩
    exact hfresh
  · exact fun hfresh ↦ ⟨db.legal.sources, eventRow_fits (Db.fits_of_row? hinfo) hstatus href,
      eventEntry_fits hkept hkey, hfresh⟩

theorem status_of_insertLogs {statusId : String} {created : List TransactionLog}
    (h : insertLogs statusId uuid [webhookLog env data eventKey now] = some created) :
    ∃ status, statusOf env data = some status ∧
      ((env.column eventKey).writeText 20 none).isSome = true := by
  simp only [insertLogs, NewLog.insert, webhookLog, bind, Option.bind_eq_some_iff,
    Option.some.injEq] at h
  obtain ⟨entry, ⟨status, hstatus, channel, -, key, hkey, -⟩, -⟩ := h
  exact ⟨status, hstatus, Option.isSome_iff_exists.mpr ⟨key, hkey⟩⟩

/-- The save of an event on the row as it stands is accepted exactly when the event is storable, and
it leaves the row and the entry of the event. -/
theorem save_recordedStatus_eq_some {saved : SavedStatus} {db' : Db}
    (hinfo : db.row? info.id = some info)
    (hsave : db.save (recordedStatus env info (db.attached info.id) data eventKey now) uuid
      = some (saved, db')) :
    Storable env db uuid data eventKey ∧ ∃ status, statusOf env data = some status ∧
      saved.id = info.id ∧ db'.toTables = db.withEvent (eventRow env info data now status)
        (eventEntry env info eventKey now (uuid 1) status) := by
  obtain ⟨-, hlogs⟩ := Db.save_eq_some hsave
  rw [recordedStatus_transactionLogs] at hlogs
  obtain ⟨created, hcreated, -⟩ := Option.map_eq_some_iff.mp hlogs
  obtain ⟨status, hstatus, hkey⟩ := status_of_insertLogs hcreated
  have href : ((env.column (data.prop "id")).writeText 50 none).isSome = true := by
    obtain ⟨-, row', hupdate, -⟩ := Db.row?_save_self hsave (recordedStatus_id ..) hinfo
    rw [Column.isSome_writeText 50 none info.providerRefId]
    exact Option.isSome_iff_exists.mpr ⟨_, (TransactionStatus.updated hupdate).providerRefId⟩
  simp only [Db.save, save_recordedStatus hinfo hstatus href hkey, bind, Option.bind_some] at hsave
  split at hsave
  · next hl =>
    obtain ⟨rfl, rfl⟩ := Prod.mk.inj (Option.some_inj.mp hsave)
    have hfresh := (legal_withEvent hinfo hstatus href hkey (uuid 1)).mp hl
    exact ⟨⟨by rw [hstatus]; rfl, href, hkey, hfresh⟩, status, hstatus, rfl, rfl⟩
  · exact absurd hsave (by simp)

theorem save_recordedStatus_isSome (hinfo : db.row? info.id = some info)
    (h : Storable env db uuid data eventKey) (now : Date) :
    (db.save (recordedStatus env info (db.attached info.id) data eventKey now) uuid).isSome := by
  obtain ⟨hstatus, href, hkey, hfresh⟩ := h
  obtain ⟨status, hstatus⟩ := Option.isSome_iff_exists.mp hstatus
  have hl : (db.withEvent (eventRow env info data now status)
      (eventEntry env info eventKey now (uuid 1) status)).Legal :=
    (legal_withEvent hinfo hstatus href hkey (uuid 1)).mpr hfresh
  simp [Db.save, save_recordedStatus hinfo hstatus href hkey, hl]

end Storable

/-! ## When the credit message can be written -/

/-- The stored metadata has what the message is made of. -/
structure Readable (env : Env) (metadata : Js) : Prop where
  present : metadata.nullish = false
  price : ((metadata.prop "price").toStringCall env.printNumber).isSome
  amount : ((metadata.prop "tokenAmount").text env.printNumber).isSome
  bonus : ((metadata.prop "tokenBonus").text env.printNumber).isSome
  /-- The name of the package is the bonus and the amount, or the amount alone. -/
  name : (metadata.prop "tokenBonus").truthy = true ∨
    (metadata.prop "tokenAmount").nullish = false

theorem packageFields_eq_some_iff {metadata : Js} (h : metadata.nullish = false)
    {fields : PackageFields} :
    packageFields env metadata = some fields ↔
      ∃ price name, (metadata.prop "price").toStringCall env.printNumber = some price ∧
        packageName env (metadata.prop "tokenAmount") (metadata.prop "tokenBonus") = some name ∧
        fields = ⟨metadata.prop "tokenSymbol", metadata.prop "tokenAmount",
          metadata.prop "tokenBonus", price, metadata.prop "currency", name⟩ := by
  simp only [packageFields, Js.get?_of_not_nullish h, bind, Option.bind_some,
    Option.bind_eq_some_iff, Option.some.injEq]
  constructor
  · rintro ⟨price, hprice, name, hname, rfl⟩
    exact ⟨price, name, hprice, hname, rfl⟩
  · rintro ⟨price, name, hprice, hname, rfl⟩
    exact ⟨price, hprice, name, hname, rfl⟩

theorem packageName_isSome_iff {amount bonus : Js} (ha : (amount.text env.printNumber).isSome)
    (hb : (bonus.text env.printNumber).isSome) :
    (packageName env amount bonus).isSome = true ↔
      bonus.truthy = true ∨ amount.nullish = false := by
  obtain ⟨a, ha⟩ := Option.isSome_iff_exists.mp ha
  obtain ⟨b, hb⟩ := Option.isSome_iff_exists.mp hb
  unfold packageName
  split
  · next h => simp [h, ha, hb]
  · next h => simp [h, Js.toStringCall_isSome, ha]

theorem creditMessage_isSome_iff {info : TransactionStatus} {data : Js} {fields : PackageFields} :
    (creditMessage env info data fields).isSome = true ↔
      (fields.tokenAmount.text env.printNumber).isSome = true ∧
        (fields.tokenBonus.text env.printNumber).isSome = true := by
  rw [← Js.addText_isSome]
  constructor
  · intro h
    obtain ⟨msg, hmsg⟩ := Option.isSome_iff_exists.mp h
    simp only [creditMessage, bind, Option.bind_eq_some_iff] at hmsg
    obtain ⟨coinValue, hcoin, -⟩ := hmsg
    rw [hcoin]
    rfl
  · intro h
    obtain ⟨hamount, hbonus⟩ := (Js.addText_isSome _ _ _).mp h
    obtain ⟨coinValue, hcoin⟩ := Option.isSome_iff_exists.mp h
    obtain ⟨coins, hcoins⟩ :=
      Option.isSome_iff_exists.mp ((Js.textOrZero_isSome _ _).mpr hamount)
    obtain ⟨bonus, hbonus⟩ :=
      Option.isSome_iff_exists.mp ((Js.textOrZero_isSome _ _).mpr hbonus)
    simp [creditMessage, hcoin, hcoins, hbonus]

theorem readable_iff (info : TransactionStatus) (data : Js) {metadata : Js} :
    ((packageFields env metadata).bind (creditMessage env info data)).isSome = true ↔
      Readable env metadata := by
  rcases hpresent : metadata.nullish with _ | _
  · constructor
    · intro h
      obtain ⟨msg, hmsg⟩ := Option.isSome_iff_exists.mp h
      obtain ⟨fields, hfields, hmsg⟩ := Option.bind_eq_some_iff.mp hmsg
      obtain ⟨price, name, hprice, hname, rfl⟩ := (packageFields_eq_some_iff hpresent).mp hfields
      obtain ⟨hamount, hbonus⟩ := creditMessage_isSome_iff.mp (by rw [hmsg]; rfl)
      exact ⟨hpresent, by rw [hprice]; rfl, hamount, hbonus,
        (packageName_isSome_iff hamount hbonus).mp (by rw [hname]; rfl)⟩
    · rintro ⟨-, hprice, hamount, hbonus, hname⟩
      obtain ⟨price, hprice⟩ := Option.isSome_iff_exists.mp hprice
      obtain ⟨name, hname⟩ :=
        Option.isSome_iff_exists.mp ((packageName_isSome_iff hamount hbonus).mpr hname)
      rw [(packageFields_eq_some_iff hpresent).mpr ⟨price, name, hprice, hname, rfl⟩]
      exact creditMessage_isSome_iff.mpr ⟨hamount, hbonus⟩
  · have hget : metadata.get? "tokenSymbol" = none := by
      have := Js.get?_isSome metadata "tokenSymbol"
      rw [hpresent] at this
      simpa using this
    constructor
    · intro h
      simp [packageFields, hget] at h
    · intro h
      exact absurd h.present (by rw [hpresent]; simp)

/-! ## What a delivery leaves -/

section Withevent

variable {db db' : Db} {row old : TransactionStatus} {entry : TransactionLog}

theorem Db.row?_of_withEvent (h : db'.toTables = db.withEvent row entry)
    (hold : db.row? row.id = some old) : db'.row? row.id = some row := by
  have hs : db'.statuses = Keyed.replace TransactionStatus.id row.id row db.statuses :=
    congrArg Tables.statuses h
  rw [Db.row?, hs]
  exact Keyed.find_replace_self rfl hold

theorem Db.attached_of_withEvent (h : db'.toTables = db.withEvent row entry)
    (hentry : entry.transactionStatusId = some row.id) (id : String) :
    db'.attached id = db.attached id ++ if id = row.id then [entry] else [] := by
  have hl : db'.logs = db.logs ++ [entry] := congrArg Tables.logs h
  rw [Db.attached, hl, List.filter_append]
  by_cases hid : id = row.id
  · simp [Db.attached, hentry, hid]
  · simp [Db.attached, hentry, hid, Ne.symm hid]

end Withevent

/-- The event reaches the tables: its lookup comes out at a row, and the save is accepted. -/
structure Stored (env : Env) (w : World) (o : ℕ → Choice) (data eventKey : Js)
    (info : TransactionStatus) : Prop where
  found : Found env w data (o 0) info (w.db.attached info.id)
  answered : (o 1).fails = false
  storable : Storable env w.db (o 1).uuid data eventKey

section Delivery

variable {w : World} {o : ℕ → Choice} {data eventKey : Js} {info : TransactionStatus}

theorem Stored.row? (h : Stored env w o data eventKey info) : w.db.row? info.id = some info := by
  obtain ⟨sourceId, -, hfind⟩ := h.found.source
  exact Db.row?_eq_some_iff.mpr ⟨(Db.mem_of_findOneBySource hfind).1, rfl⟩

theorem Stored.unique {info' : TransactionStatus} (h : Stored env w o data eventKey info)
    (h' : Stored env w o data eventKey info') : info = info' := by
  obtain ⟨source, hsource, hfind⟩ := h.found.source
  obtain ⟨source', hsource', hfind'⟩ := h'.found.source
  obtain rfl := Option.some_inj.mp (hsource.symm.trans hsource')
  exact (Prod.mk.inj (Option.some_inj.mp (hfind.symm.trans hfind'))).1

/-- An event that does not reach the tables changes nothing at all. -/
theorem run_createTransactionLog_of_not_stored (h : ∀ info, ¬Stored env w o data eventKey info) :
    Async.run (perform env) (createTransactionLog env data eventKey) o w = (.ok (), w) := by
  by_cases hfound : ∃ info logs, Found env w data (o 0) info logs
  · obtain ⟨info, logs, hfound⟩ := hfound
    obtain ⟨sourceId, -, hfind⟩ := hfound.source
    obtain ⟨hmem, rfl⟩ := Db.mem_of_findOneBySource hfind
    refine run_createTransactionLog_of_rejected hfound ?_
    rcases hsave : saveOutcome w.db (recordedStatus env info (w.db.attached info.id) data eventKey
      (o 0).now) (o 1) with _ | ⟨saved, db⟩
    · rfl
    · obtain ⟨hf, hsave⟩ := saveOutcome_eq_some.mp hsave
      obtain ⟨hstorable, -⟩ :=
        save_recordedStatus_eq_some (Db.row?_eq_some_iff.mpr ⟨hmem, rfl⟩) hsave
      exact absurd ⟨hfound, hf, hstorable⟩ (h info)
  · push Not at hfound
    exact run_createTransactionLog_of_not_found hfound eventKey

/-- An event that reaches the tables leaves its status in the row and its entry in the log, and its
message in the queue if one is due and the queue takes it. -/
theorem run_createTransactionLog_of_stored (h : Stored env w o data eventKey info) :
    ∃ status w', statusOf env data = some status ∧
      Async.run (perform env) (createTransactionLog env data eventKey) o w = (.ok (), w') ∧
      w'.db.toTables = w.db.withEvent (eventRow env info data (o 0).now status)
        (eventEntry env info eventKey (o 0).now ((o 1).uuid 1) status) ∧
      w'.provider = w.provider ∧
      w'.queue = w.queue ++ if (o 2).fails then [] else (creditDue env info data).toList := by
  obtain ⟨⟨saved, db⟩, hsave⟩ :=
    Option.isSome_iff_exists.mp (save_recordedStatus_isSome h.row? h.storable (o 0).now)
  obtain ⟨-, status, hcol, -, htables⟩ := save_recordedStatus_eq_some h.row? hsave
  obtain ⟨w', hrun, rfl, hprovider, hqueue⟩ :=
    run_createTransactionLog_of_saved h.found (saveOutcome_eq_some.mpr ⟨h.answered, hsave⟩)
  exact ⟨status, w', hcol, hrun, htables, hprovider, hqueue⟩

end Delivery

/-! ## Whose word counts -/

section Trust

variable {w : World} {o : ℕ → Choice} {body : Js} {headers : Headers}

/-- Between two states a transaction was taken for paid: a credit was sent, or a row came to the
status `successful`. -/
def Pays (w w' : World) : Prop :=
  w'.queue ≠ w.queue ∨
    ∃ row' ∈ w'.db.statuses, row'.status = ChargeStatuses.successful.value ∧
      ∀ row, w.db.row? row'.id = some row → row.status ≠ ChargeStatuses.successful.value

theorem not_pays_self (w : World) : ¬Pays w w := by
  rintro (hqueue | ⟨row, hrow, hstatus, hold⟩)
  · exact hqueue rfl
  · exact hold row (Db.row?_eq_some_iff.mpr ⟨hrow, rfl⟩) hstatus

theorem run_withProvider (env : Env) (data eventKey : Js) (o : ℕ → Choice) (w : World)
    (provider : Provider) :
    Async.run (perform env) (createTransactionLog env data eventKey) o { w with provider } =
      ((Async.run (perform env) (createTransactionLog env data eventKey) o w).1,
        { (Async.run (perform env) (createTransactionLog env data eventKey) o w).2 with
          provider }) :=
  run_frame (f := fun w ↦ { w with provider })
    (fun w _ o hc ↦ perform_withProvider env hc w o provider)
    (always_createTransactionLog env data eventKey) o w

theorem Validated.withProvider {o : Choice} (h : Validated env w o body headers)
    {provider : Provider}
    (hids : ∀ id, (provider.charge? id).isSome = (w.provider.charge? id).isSome) :
    Validated env { w with provider } o body headers := by
  obtain ⟨hevent, haccepted, hf, id, charge, htext, hcharge⟩ := h
  have hsome : (provider.charge? id).isSome := by
    rw [hids, hcharge]
    rfl
  obtain ⟨charge', hcharge'⟩ := Option.isSome_iff_exists.mp hsome
  exact ⟨hevent, haccepted, hf, id, charge', htext, hcharge'⟩

/-- Handling a webhook request takes a transaction for paid only if the provider knows the charge
and the body itself says `successful`, in the form that the column keeps; to send a credit, it has to
say so exactly. What the provider says about the charge has no influence: in a state whose provider
knows the same charges, in whatever status, the same happens. -/
theorem pays_only_on_claim (env : Env) (body : Js) (headers : Headers) (o : ℕ → Choice)
    (w : World) :
    (Pays w (serve env (.omiseCallback body headers) o w).2 →
        (∃ id charge, Js.text env.printNumber ((body.prop "data").prop "id") = some id ∧
            w.provider.charge? id = some charge) ∧
          statusOf env (body.prop "data") = some ChargeStatuses.successful.value ∧
          ((serve env (.omiseCallback body headers) o w).2.queue ≠ w.queue →
            (body.prop "data").prop "status" = .str ChargeStatuses.successful.value)) ∧
      ∀ provider : Provider,
        (∀ id, (provider.charge? id).isSome = (w.provider.charge? id).isSome) →
          (serve env (.omiseCallback body headers) o { w with provider }).2 =
            { (serve env (.omiseCallback body headers) o w).2 with provider } := by
  by_cases hvalid : Validated env w (o 0) body headers
  · constructor
    · intro hpays
      refine ⟨hvalid.known, ?_⟩
      rw [serve_of_validated hvalid] at hpays
      by_cases hstored : ∃ info, Stored env w (later o) (body.prop "data") (body.prop "key") info
      · obtain ⟨info, hstored⟩ := hstored
        obtain ⟨status, w', hcol, hrun, htables, -, hqueue⟩ :=
          run_createTransactionLog_of_stored hstored
        have hclaims : w'.queue ≠ w.queue →
            (body.prop "data").prop "status" = .str ChargeStatuses.successful.value := by
          intro hsent
          rcases hdue : creditDue env info (body.prop "data") with _ | msg
          · exact absurd (by simpa [hdue] using hqueue) hsent
          · exact Js.isStr_iff.mp (transactionId_of_creditDue hdue).2
        rw [serve_of_validated hvalid, hrun]
        rw [hrun] at hpays
        refine ⟨?_, hclaims⟩
        rcases hpays with hsent | ⟨row', hrow', hstatus, hold⟩
        · exact statusOf_of_success (hclaims hsent)
        · have hs := congrArg Tables.statuses htables
          rw [hs] at hrow'
          rcases Keyed.mem_replace hrow' with rfl | ⟨hmem, -⟩
          · rw [hcol]
            exact congrArg some hstatus
          · exact absurd hstatus (hold row' (Db.row?_eq_some_iff.mpr ⟨hmem, rfl⟩))
      · -- Nothing reaches the tables, so nothing is credited either.
        push Not at hstored
        rw [run_createTransactionLog_of_not_stored hstored] at hpays
        exact absurd hpays (not_pays_self w)
    · intro provider hids
      rw [serve_of_validated hvalid, serve_of_validated (hvalid.withProvider hids),
        run_withProvider]
  · have hback : ∀ provider : Provider,
        (∀ id, (provider.charge? id).isSome = (w.provider.charge? id).isSome) →
          ¬Validated env { w with provider } (o 0) body headers := by
      intro provider hids h
      have hsame : Validated env { { w with provider } with provider := w.provider } (o 0) body
        headers := h.withProvider fun id ↦ (hids id).symm
      exact hvalid hsame
    rw [serve_of_not_validated hvalid]
    refine ⟨fun hpays ↦ absurd hpays (not_pays_self w), fun provider hids ↦ ?_⟩
    rw [serve_of_not_validated (hback provider hids)]

/-- An event about a charge that is still pending, sent by anybody, with the status changed in the
body: the order is credited. The honest event is not. -/
theorem forged_event_credits :
    ∃ charge ∈ (Shop.after (Shop.purchase ++ Shop.payment 1 "src_1" "first")).world.provider.charges,
      charge.status = ChargeStatuses.pending.value ∧
        ((system Shop.platform).run
            (Shop.after (Shop.purchase ++ Shop.payment 1 "src_1" "first"))
            (Shop.delivery 2 .complete
              { charge with status := ChargeStatuses.successful.value } "hook")).world.queue.length
          = 1 ∧
        ((system Shop.platform).run
            (Shop.after (Shop.purchase ++ Shop.payment 1 "src_1" "first"))
            (Shop.delivery 2 .complete charge "hook")).world.queue.length = 0 := by
  decide +kernel

end Trust

/-! ## What an acknowledgement is worth -/

section Acknowledgement

variable {w : World} {o : ℕ → Choice} {body : Js} {headers : Headers} {data eventKey : Js}

/-- What an acknowledgement should mean: a row has come to the status of the event, with a new log
entry for it, and if that status is a success, the credit message has been sent. -/
def Recorded (env : Env) (w w' : World) (data eventKey : Js) : Prop :=
  ∃ row row' log status, w.db.row? row.id = some row ∧ w'.db.row? row.id = some row' ∧
    statusOf env data = some status ∧ row'.status = status ∧
    log ∈ w'.db.attached row.id ∧ log ∉ w.db.logs ∧
    log.status = status ∧ log.channel = some "webhook" ∧
    (env.column eventKey).writeText 20 none = some log.eventKey ∧
    (status = ChargeStatuses.successful.value →
      ∃ msg, w'.queue = w.queue ++ [msg] ∧ msg.attributes.transactionId = row.id)

/-- Nothing goes wrong on the way of an event: it reaches the tables, and if it makes the row a
success, it says so without blanks that the column cuts off, the metadata of the row is readable and
the queue takes the message. -/
def Recordable (env : Env) (w : World) (o : ℕ → Choice) (data eventKey : Js) : Prop :=
  ∃ info, Stored env w o data eventKey info ∧
    (statusOf env data = some ChargeStatuses.successful.value →
      data.prop "status" = .str ChargeStatuses.successful.value ∧ Readable env info.metadata ∧
        (o 2).fails = false)

/-- The rest of the handling records the event exactly when nothing goes wrong on the way. -/
theorem recorded_iff_recordable :
    Recorded env w (Async.run (perform env) (createTransactionLog env data eventKey) o w).2
        data eventKey ↔ Recordable env w o data eventKey := by
  by_cases hstored : ∃ info, Stored env w o data eventKey info
  · obtain ⟨info, hstored⟩ := hstored
    obtain ⟨status, w', hcol, hrun, htables, -, hqueue⟩ :=
      run_createTransactionLog_of_stored hstored
    rw [hrun]
    constructor
    · -- The row and the entry are there in any case; what is open is the credit.
      rintro ⟨row, row', log, status', -, -, hcol', -, -, -, -, -, -, hcredit⟩
      refine ⟨info, hstored, fun hkept ↦ ?_⟩
      obtain ⟨msg, hmsg, -⟩ := hcredit (Option.some_inj.mp (hcol'.symm.trans hkept))
      rw [hqueue] at hmsg
      rcases hf : (o 2).fails with _ | _
      · rcases hdue : creditDue env info data with _ | msg'
        · exact absurd (List.append_cancel_left hmsg) (by simp [hf, hdue])
        · have hsuccess := Js.isStr_iff.mp (transactionId_of_creditDue hdue).2
          refine ⟨hsuccess, ?_, rfl⟩
          rw [← readable_iff info data, ← creditDue_of_success hsuccess, hdue]
          rfl
      · exact absurd (List.append_cancel_left hmsg) (by simp [hf])
    · rintro ⟨info', hstored', hcredit⟩
      have hlogs := Db.attached_of_withEvent htables (rfl) info.id
      refine ⟨info, eventRow env info data (o 0).now status,
        eventEntry env info eventKey (o 0).now ((o 1).uuid 1) status, status,
        hstored.row?, Db.row?_of_withEvent htables hstored.row?, hcol, rfl, ?_, ?_, rfl, rfl,
        eventKey_eventEntry hstored.storable.eventKey _,
        fun hkept ↦ ?_⟩
      · rw [hlogs]
        simp
      · exact fun hin ↦ hstored.storable.fresh (List.mem_map_of_mem hin)
      · obtain rfl := hstored.unique hstored'
        obtain ⟨hsuccess, hreadable, hf⟩ := hcredit (hcol.trans (congrArg some hkept))
        obtain ⟨msg, hmsg⟩ := Option.isSome_iff_exists.mp
          ((readable_iff info data).mpr hreadable)
        rw [← creditDue_of_success hsuccess] at hmsg
        exact ⟨msg, by simp [hqueue, hf, hmsg], (transactionId_of_creditDue hmsg).1⟩
  · push Not at hstored
    rw [run_createTransactionLog_of_not_stored hstored]
    constructor
    · rintro ⟨row, row', log, status, -, -, -, -, hmem, hnew, -⟩
      exact absurd (Db.mem_attached.mp hmem).1 hnew
    · rintro ⟨info, h, -⟩
      exact absurd h (hstored info)

/-- An event that passes the validation is acknowledged, so the acknowledgement is true exactly when
nothing goes wrong on the way. -/
theorem acknowledgement_iff_recordable (env : Env) (body : Js) (headers : Headers)
    (o : ℕ → Choice) (w : World) (h : Validated env w (o 0) body headers) :
    ((serve env (.omiseCallback body headers) o w).1 = .ok .received →
        Recorded env w (serve env (.omiseCallback body headers) o w).2 (body.prop "data")
          (body.prop "key")) ↔
      Recordable env w (later o) (body.prop "data") (body.prop "key") := by
  rw [serve_of_validated h, ← recorded_iff_recordable]
  exact ⟨fun himp ↦ himp rfl, fun hrecorded _ ↦ hrecorded⟩

/-- The event of a paid order in the shop. -/
theorem acknowledgement_in_shop :
    ((serve Shop.platform (eventRequest Shop.platform .complete Shop.paidCharge)
          (fun _ ↦ Shop.choice "hook") (Shop.after Shop.paidFor).world).1 = .ok .received →
        Recorded Shop.platform (Shop.after Shop.paidFor).world
          (serve Shop.platform (eventRequest Shop.platform .complete Shop.paidCharge)
            (fun _ ↦ Shop.choice "hook") (Shop.after Shop.paidFor).world).2
          Shop.paidCharge.toJs (.str OmiseChargeEvents.complete.value)) ↔
      Recordable Shop.platform (Shop.after Shop.paidFor).world (later fun _ ↦ Shop.choice "hook")
        Shop.paidCharge.toJs (.str OmiseChargeEvents.complete.value) :=
  acknowledgement_iff_recordable Shop.platform (eventBody .complete Shop.paidCharge)
    (eventHeaders Shop.platform) (fun _ ↦ Shop.choice "hook") (Shop.after Shop.paidFor).world
    (validated_event Shop.platform_lowercase .complete (by decide) rfl (by decide +kernel))

/-- The database rejects the save of a paid order's event, and the provider is told that the event
was received. -/
theorem acknowledged_and_lost :
    (serve Shop.platform (eventRequest Shop.platform .complete Shop.paidCharge)
        (fun n ↦ { Shop.choice "hook" with fails := n = 2 }) (Shop.after Shop.paidFor).world).1
          = .ok .received ∧
      ¬Recorded Shop.platform (Shop.after Shop.paidFor).world
          (serve Shop.platform (eventRequest Shop.platform .complete Shop.paidCharge)
            (fun n ↦ { Shop.choice "hook" with fails := n = 2 })
            (Shop.after Shop.paidFor).world).2
          Shop.paidCharge.toJs (.str OmiseChargeEvents.complete.value) := by
  have hvalid : Validated Shop.platform (Shop.after Shop.paidFor).world (Shop.choice "hook")
      (eventBody .complete Shop.paidCharge) (eventHeaders Shop.platform) :=
    validated_event Shop.platform_lowercase .complete (by decide) rfl (by decide +kernel)
  rw [eventRequest, serve_of_validated (o := fun n ↦ { Shop.choice "hook" with fails := n = 2 })
    hvalid]
  refine ⟨rfl, fun hrecorded ↦ ?_⟩
  obtain ⟨info, hstored, -⟩ := recorded_iff_recordable.mp hrecorded
  exact absurd hstored.answered (by decide)

end Acknowledgement

end PaymentService
