import PaymentService.Server

/-!
# Pay and charge, call by call

The programs of `createPaymentTransaction` and `charge` as chains of calls, and what one of them
does when nothing runs in between. A charge that creates a charge at the provider is a
`ChargeCreated`; what is left of it is a single call, the save.
-/

namespace PaymentService

open Async

variable {env : Env}

/-! ## Pay -/

def afterPaySave : Except JsError (SavedStatus × Date) → Program String
  | .ok (saved, _) => done saved.id
  | .error e => fail e

def afterTokenPackage (env : Env) (userRefId : Option String) (productId : ℚ)
    (paymentType : String) : Except JsError (TokenPackageResponse × Date) → Program String
  | .ok (tokenPackage, now) =>
    await (Call.statusSave
        (newTransactionStatus env tokenPackage userRefId productId paymentType now)) afterPaySave
  | .error _ => fail (.httpException "Invalid Product" 400)

theorem createPaymentTransaction_eq (env : Env) (userRefId : Option String) (productId : ℚ)
    (paymentType : String) :
    createPaymentTransaction env userRefId productId paymentType =
      await (Call.tokenPackagesGet productId)
        (afterTokenPackage env userRefId productId paymentType) := by
  unfold createPaymentTransaction DirectusService.getTokenPackageById
  have hcall : call (Call.tokenPackagesGet productId)
      = (await (Call.tokenPackagesGet productId) settle : Program _) := rfl
  rw [hcall, tryCatch_await, await_bind]
  congr 1
  funext r
  rcases r with e | ⟨tokenPackage, now⟩
  · rfl
  · simp only [settle_ok, tryCatch_done, done_bind, TransactionStatusRepository.save, call_bind,
      afterTokenPackage]
    congr 1
    funext r
    cases r <;> rfl

/-! ## Charge -/

def afterChargeSave (chargeResult : Charge) (source : String) (now : Date) :
    Except JsError (SavedStatus × Date) → Program PaymentChargeResponse
  | .ok (saved, _) => done (chargeResponse chargeResult saved source now)
  | .error e => fail e

/-- The object a charge saves, once the provider has created `chargeResult` for `row`. -/
def attemptStatus (row : TransactionStatus) (source : String) (chargeResult : Charge)
    (now : Date) : StatusObject :=
  chargedStatus row.id source chargeResult.id (chargedMetadata row.metadata chargeResult) now

def afterCreateCharge (row : TransactionStatus) (source : String) :
    Except JsError (Charge × Date) → Program PaymentChargeResponse
  | .ok (chargeResult, now) =>
    await (Call.statusSave (attemptStatus row source chargeResult now))
      (afterChargeSave chargeResult source now)
  | .error e => fail e

/-- The charge of a row that was read. -/
def chargeRow (env : Env) (source : String) (paymentType : Option String)
    (row : TransactionStatus) : Program PaymentChargeResponse :=
  match row.metadata.get? "productId" with
  | some productId =>
    await (Call.chargesCreate (chargeRequest env row source paymentType productId))
      (afterCreateCharge row source)
  | none => fail .typeError

def afterFindOneByOrFail (env : Env) (source : String) (paymentType : Option String) :
    Except JsError (TransactionStatus × Date) → Program PaymentChargeResponse
  | .ok (row, _) => chargeRow env source paymentType row
  | .error e => fail e

/-- The charge with a source whose type is known. -/
def chargeTyped (env : Env) (txId source : String) (paymentType : Option String) :
    Program PaymentChargeResponse :=
  if supportedPaymentType paymentType then
    await (Call.statusFindOneByOrFail txId) (afterFindOneByOrFail env source paymentType)
  else fail (.httpException "Invalid payment type" 400)

theorem charge_eq (env : Env) (txId source : String) :
    charge env txId source =
      OmiseService.findPaymentTypeFromSourceId source >>= chargeTyped env txId source := by
  unfold charge
  congr 1
  funext paymentType
  unfold chargeTyped
  split
  · simp only [TransactionStatusRepository.findOneByOrFail, call_bind]
    congr 1
    funext r
    rcases r with e | ⟨row, now⟩
    · rfl
    · simp only [settle_ok, done_bind, afterFindOneByOrFail, chargeRow]
      rcases row.metadata.get? "productId" with _ | productId
      · rfl
      · simp only [orThrow_some, done_bind, OmiseService.createCharge, call_bind]
        congr 1
        funext r
        rcases r with e | ⟨chargeResult, now⟩
        · rfl
        · simp only [settle_ok, done_bind, saveTransactionStatus,
            TransactionStatusRepository.save, call_bind, await_bind, afterCreateCharge]
          congr 1
          funext r
          cases r <;> rfl
  · rfl

/-- The type of a source as the answer to its lookup, if there is one, tells it. -/
def typeOfReply : Except JsError (String × Date) → Option String
  | .ok (type, _) => some type
  | .error _ => none

theorem findPaymentTypeFromSourceId_cases (source : String) :
    (∃ type, OmiseService.findPaymentTypeFromSourceId source = done type) ∨
      OmiseService.findPaymentTypeFromSourceId source =
        await (Call.sourcesRetrieve source) fun r ↦ done (typeOfReply r) := by
  unfold OmiseService.findPaymentTypeFromSourceId
  split
  · exact Or.inl ⟨_, rfl⟩
  · split
    · right
      simp only [OmiseService.sourcesRetrieve, call_bind, tryCatch_await]
      congr 1
      funext r
      cases r <;> rfl
    · exact Or.inl ⟨_, rfl⟩

/-- What holds of a type that is known at once and of one that is asked for, holds of every one. -/
@[elab_as_elim]
theorem findPaymentTypeFromSourceId_elim {motive : Program (Option String) → Prop}
    {source : String} (known : ∀ type, motive (done type))
    (asked : motive (await (Call.sourcesRetrieve source) fun r ↦ done (typeOfReply r))) :
    motive (OmiseService.findPaymentTypeFromSourceId source) := by
  rcases findPaymentTypeFromSourceId_cases source with ⟨type, heq⟩ | heq
  · rw [heq]
    exact known type
  · rw [heq]
    exact asked

/-! ## What neither of them calls -/

theorem always_createPaymentTransaction (env : Env) (userRefId : Option String) (productId : ℚ)
    (paymentType : String) :
    Always (fun c ↦ c.ofWebhook = false)
      (createPaymentTransaction env userRefId productId paymentType) := by
  rw [createPaymentTransaction_eq]
  refine ⟨rfl, fun r _ ↦ ?_⟩
  rcases r with e | ⟨tokenPackage, now⟩
  · trivial
  · refine ⟨rfl, fun r _ ↦ ?_⟩
    cases r <;> trivial

theorem always_chargeRow (env : Env) (source : String) (paymentType : Option String)
    (row : TransactionStatus) :
    Always (fun c ↦ c.ofWebhook = false) (chargeRow env source paymentType row) := by
  unfold chargeRow
  split
  · refine ⟨rfl, fun r _ ↦ ?_⟩
    rcases r with e | ⟨chargeResult, now⟩
    · trivial
    · refine ⟨rfl, fun r _ ↦ ?_⟩
      cases r <;> trivial
  · trivial

theorem always_charge (env : Env) (txId source : String) :
    Always (fun c ↦ c.ofWebhook = false) (charge env txId source) := by
  rw [charge_eq]
  refine Follows.bind (Q := fun _ ↦ True) ?_ fun type _ ↦ ?_
  · exact findPaymentTypeFromSourceId_elim (fun _ ↦ trivial) ⟨rfl, fun _ _ ↦ trivial⟩
  · unfold chargeTyped
    split
    · refine ⟨rfl, fun r _ ↦ ?_⟩
      cases r with
      | error e => trivial
      | ok r => exact always_chargeRow env source type r.1
    · trivial

/-! ## One charge, undisturbed -/

/-- The type of a source, given how its lookup comes out, and the choices that are left. -/
def resolveType (source : String) (o : ℕ → Choice) : Option String × (ℕ → Choice) :=
  if Js.startsWith source "tokn_" then (some PaymentTypeEnum.card.value, o)
  else if Js.startsWith source "src_" then
    (if (o 0).fails then none else some (o 0).sourceType, later o)
  else (none, o)

theorem run_charge (env : Env) (txId source : String) (o : ℕ → Choice) (w : World) :
    Async.run (perform env) (charge env txId source) o w =
      Async.run (perform env) (chargeTyped env txId source (resolveType source o).1)
        (resolveType source o).2 w := by
  rw [charge_eq]
  unfold OmiseService.findPaymentTypeFromSourceId resolveType
  split
  · rfl
  · split
    · simp only [OmiseService.sourcesRetrieve, call_bind, tryCatch_await, await_bind, run_await]
      rcases hf : (o 0).fails with _ | _
      · simp [perform, hf, answer]
      · simp [perform, hf]
    · rfl

/-- The calls of a charge: the lookup of the source, if it has to be looked up, and those that follow
the resolution of the type. -/
theorem performed_charge (env : Env) (txId source : String) (o : ℕ → Choice) (w : World) :
    ∃ asked, (∀ e ∈ asked, e.1 = Call.sourcesRetrieve source) ∧
      performed (perform env) (charge env txId source) o w =
        asked ++ performed (perform env) (chargeTyped env txId source (resolveType source o).1)
          (resolveType source o).2 w := by
  rw [charge_eq]
  unfold OmiseService.findPaymentTypeFromSourceId resolveType
  split
  · exact ⟨[], fun e he ↦ absurd he List.not_mem_nil, rfl⟩
  · split
    · refine ⟨[⟨.sourcesRetrieve source, (perform env w (.sourcesRetrieve source) (o 0)).1⟩], ?_, ?_⟩
      · intro e he
        rw [List.mem_singleton.mp he]
      simp only [OmiseService.sourcesRetrieve, call_bind, tryCatch_await, await_bind, performed]
      rcases hf : (o 0).fails with _ | _
      · simp [perform, hf, answer]
      · simp [perform, hf]
    · exact ⟨[], fun e he ↦ absurd he List.not_mem_nil, rfl⟩

theorem means_chargeRequest (env : Env) (row : TransactionStatus) (source : String)
    (paymentType : Option String) (productId : Js) :
    (chargeRequest env row source paymentType productId).means = [source] := by
  unfold ChargeRequest.means chargeRequest
  split_ifs <;> simp_all

/-- The outcome of the first calls lets the charge be created: the type of the source is supported,
the row is there and can be read, and the provider accepts. -/
structure ChargeCreated (w : World) (txId source : String) (o : ℕ → Choice)
    (row : TransactionStatus) (productId : Js) : Prop where
  supported : supportedPaymentType (resolveType source o).1 = true
  lookup : ((resolveType source o).2 0).fails = false
  found : w.db.find? txId = some row
  product : row.metadata.get? "productId" = some productId
  create : ((resolveType source o).2 1).fails = false
  makes : ((resolveType source o).2 1).Makes [source]
  fresh : w.provider.charge? ((resolveType source o).2 1).chargeId = none

/-- The charge the provider then makes. -/
def createdCharge (env : Env) (source : String) (o : ℕ → Choice) (row : TransactionStatus)
    (productId : Js) : Charge :=
  ((resolveType source o).2 1).charge
    (chargeRequest env row source (resolveType source o).1 productId)

/-- The state in which the charge exists and the row does not know it. -/
def World.charged (w : World) (charge : Charge) : World :=
  { w with provider := w.provider.create charge }

/-- The object the charge then saves. -/
def savedAttempt (env : Env) (source : String) (o : ℕ → Choice) (row : TransactionStatus)
    (productId : Js) : StatusObject :=
  attemptStatus row source (createdCharge env source o row productId)
    ((resolveType source o).2 1).now

section

variable {w : World} {txId source : String} {o : ℕ → Choice} {row : TransactionStatus}
  {productId : Js}

theorem run_charge_of_not_created (h : ∀ row productId, ¬ChargeCreated w txId source o row productId)
    (env : Env) :
    ∃ e, Async.run (perform env) (charge env txId source) o w = (.error e, w) := by
  rw [run_charge]
  unfold chargeTyped
  split
  · next hsupported =>
    rw [run_await]
    rcases hf : ((resolveType source o).2 0).fails with _ | _
    · rcases hrow : w.db.find? txId with _ | row
      · exact ⟨.rejected, by simp [perform, hf, answer, hrow, afterFindOneByOrFail]⟩
      · have hanswer : answer env w ((resolveType source o).2 0) (.statusFindOneByOrFail txId)
            = some (row, w) := by rw [answer, hrow, Option.map_some]
        rw [perform_of_answer hf hanswer]
        simp only [afterFindOneByOrFail, chargeRow]
        rcases hproduct : row.metadata.get? "productId" with _ | productId
        · exact ⟨_, rfl⟩
        · have hrefused : ¬(((resolveType source o).2 1).fails = false ∧
              ((resolveType source o).2 1).Makes [source] ∧
              (w.provider.charge? ((resolveType source o).2 1).chargeId).isNone) :=
            fun hmade ↦ h row productId ⟨hsupported, hf, hrow, hproduct, hmade.1, hmade.2.1,
              Option.isNone_iff_eq_none.mp hmade.2.2⟩
          simp only [run_await, later_apply, Nat.zero_add]
          rw [perform_chargesCreate, means_chargeRequest, if_neg hrefused]
          exact ⟨.rejected, rfl⟩
    · exact ⟨.rejected, by simp [perform, hf, afterFindOneByOrFail]⟩
  · exact ⟨_, rfl⟩

theorem run_charge_of_created (h : ChargeCreated w txId source o row productId) (env : Env) :
    Async.run (perform env) (charge env txId source) o w =
      Async.run (perform env)
        (await (Call.statusSave (savedAttempt env source o row productId))
          (afterChargeSave (createdCharge env source o row productId) source
            ((resolveType source o).2 1).now))
        (later (later (resolveType source o).2))
        (w.charged (createdCharge env source o row productId)) := by
  obtain ⟨hsupported, hlookup, hrow, hproduct, hcreate, hmakes, hfresh⟩ := h
  have hread : answer env w ((resolveType source o).2 0) (.statusFindOneByOrFail txId)
      = some (row, w) := by rw [answer, hrow, Option.map_some]
  have hmade : answer env w ((resolveType source o).2 1)
      (.chargesCreate (chargeRequest env row source (resolveType source o).1 productId))
        = some (createdCharge env source o row productId,
            w.charged (createdCharge env source o row productId)) := by
    rw [answer, means_chargeRequest, if_pos ⟨hmakes, Option.isNone_iff_eq_none.mpr hfresh⟩]
    rfl
  rw [run_charge, chargeTyped, if_pos hsupported,
    run_await_of (perform env) (perform_of_answer hlookup hread), afterFindOneByOrFail, chargeRow]
  simp only [hproduct]
  rw [run_await_of (o := later _) (perform env) (perform_of_answer hcreate hmade)]
  rfl

theorem run_charge_of_rejected (h : ChargeCreated w txId source o row productId)
    (hsave : saveOutcome w.db (savedAttempt env source o row productId)
      ((resolveType source o).2 2) = none) :
    Async.run (perform env) (charge env txId source) o w =
      (.error .rejected, w.charged (createdCharge env source o row productId)) := by
  rw [run_charge_of_created h, run_await, later_apply, later_apply, perform_statusSave]
  simp only [World.charged] at hsave ⊢
  rw [hsave]
  rfl

theorem run_charge_of_saved (h : ChargeCreated w txId source o row productId) {saved : SavedStatus}
    {db : Db}
    (hsave : saveOutcome w.db (savedAttempt env source o row productId)
      ((resolveType source o).2 2) = some (saved, db)) :
    Async.run (perform env) (charge env txId source) o w =
      (.ok (chargeResponse (createdCharge env source o row productId) saved source
          ((resolveType source o).2 1).now),
        { w.charged (createdCharge env source o row productId) with db }) := by
  rw [run_charge_of_created h, run_await, later_apply, later_apply, perform_statusSave]
  simp only [World.charged] at hsave ⊢
  rw [hsave]
  rfl

end

theorem serve_charge (env : Env) (txId source : String) (o : ℕ → Choice) (w : World) :
    serve env (.charge txId source) o w =
      ((Async.run (perform env) (charge env txId source) o w).1.map .charged,
        (Async.run (perform env) (charge env txId source) o w).2) :=
  run_bind_done (perform env) (charge env txId source) Response.charged o w

/-! ## What the save of a charge leaves -/

section

variable {read current : TransactionStatus} {source : String} {chargeResult : Charge} {now : Date}

/-- The row a charge leaves: the source and the charge are new, as far as their columns take them,
and so is the metadata, which is made of the row as it was read. -/
def attemptRow (read current : TransactionStatus) (source : String) (chargeResult : Charge) :
    TransactionStatus :=
  { current with
    source := Sql.varchar 50 source
    providerRefId := Sql.varchar 50 chargeResult.id
    metadata := chargedMetadata read.metadata chargeResult }

/-- The columns take what a charge saves. -/
structure AttemptTaken (read : TransactionStatus) (source : String) (chargeResult : Charge) :
    Prop where
  source : (Sql.varchar 50 source).isSome = true
  chargeId : (Sql.varchar 50 chargeResult.id).isSome = true
  metadata : (chargedMetadata read.metadata chargeResult).noNul = true

/-- The log entry a charge leaves. -/
def attemptEntry (statusId uuid : String) (now : Date) : TransactionLog where
  id := uuid
  status := ChargeStatuses.pending.value
  channel := some "api"
  eventKey := some OmiseChargeEvents.create.value
  transactionStatusId := some statusId
  createdAt := now
  updatedAt := none

@[simp] theorem attemptStatus_id (read : TransactionStatus) (source : String)
    (chargeResult : Charge) (now : Date) :
    (attemptStatus read source chargeResult now).id = some read.id := rfl

@[simp] theorem attemptStatus_status (read : TransactionStatus) (source : String)
    (chargeResult : Charge) (now : Date) :
    (attemptStatus read source chargeResult now).status = .undefined := rfl

theorem prop_chargedMetadata (metadata : Js) (chargeResult : Charge) {key : String}
    (hqr : key ≠ "qr_code") (hcard : key ≠ "card") (hkey : ∃ c ∈ key.toList, c.isDigit = false) :
    (chargedMetadata metadata chargeResult).prop key = metadata.prop key := by
  rw [← Js.prop_obj_spread metadata hkey, chargedMetadata, Js.prop_obj, Js.prop_obj,
    Js.lookup_assign_of_ne _ _ hcard, Js.lookup_assign_of_ne _ _ hqr]

@[simp] theorem attemptRow_id (read current : TransactionStatus) (source : String)
    (chargeResult : Charge) : (attemptRow read current source chargeResult).id = current.id := rfl

theorem update_attemptStatus (h : AttemptTaken read source chargeResult) :
    current.update (attemptStatus read source chargeResult now) =
      some (attemptRow read current source chargeResult) := by
  obtain ⟨kept, hsource⟩ := Option.isSome_iff_exists.mp h.source
  obtain ⟨keptId, hchargeId⟩ := Option.isSome_iff_exists.mp h.chargeId
  simp [TransactionStatus.update, attemptStatus, chargedStatus, attemptRow, hsource, hchargeId,
    jsonb_of_noNul h.metadata]

theorem attemptTaken_of_update {row : TransactionStatus}
    (h : current.update (attemptStatus read source chargeResult now) = some row) :
    AttemptTaken read source chargeResult := by
  have hrow := TransactionStatus.updated h
  constructor
  · obtain ⟨kept, hkept, -⟩ := Option.map_eq_some_iff.mp hrow.source
    rw [hkept, Option.isSome_some]
  · obtain ⟨kept, hkept, -⟩ := Option.map_eq_some_iff.mp hrow.providerRefId
    rw [hkept, Option.isSome_some]
  · exact (jsonb_eq_some_iff.mp hrow.metadata).1

theorem eq_of_update_attemptStatus {row : TransactionStatus}
    (h : current.update (attemptStatus read source chargeResult now) = some row) :
    row = attemptRow read current source chargeResult := by
  rw [update_attemptStatus (attemptTaken_of_update h)] at h
  exact (Option.some_inj.mp h).symm

/-- What the provider returns brings no `NUL` into the metadata. -/
theorem noNul_chargedMetadata {metadata : Js} (hmetadata : metadata.noNul = true)
    (hsource : chargeResult.source.noNul = true) (hcard : chargeResult.card.noNul = true) :
    (chargedMetadata metadata chargeResult).noNul = true := by
  have hcode := Js.noNul_orUndefined (Js.noNul_prop hsource "scannable_code")
  exact Js.fieldsNoNul_assign
    (Js.fieldsNoNul_assign (Js.fieldsNoNul_spread hmetadata) (by decide) hcode)
    (by decide) (Js.noNul_orUndefined hcard)

/-- A charge never makes a row: its object lacks the required columns. -/
theorem insert_attemptStatus (read : TransactionStatus) (source : String) (chargeResult : Charge)
    (now : Date) (id : String) : (attemptStatus read source chargeResult now).insert id = none := rfl

/-- A completed save of a charge: the columns took it, the row was there and is updated, its log
consists of the one new entry, and the entries that were attached before are not any more. -/
theorem save_attemptStatus {db db' : Db} {uuid : ℕ → String} {saved : SavedStatus}
    (hsave : db.save (attemptStatus read source chargeResult now) uuid = some (saved, db')) :
    ∃ current, db.row? read.id = some current ∧ AttemptTaken read source chargeResult ∧
      db'.row? read.id = some (attemptRow read current source chargeResult) ∧
      db'.attached read.id = [attemptEntry read.id (uuid 1) now] ∧
      ∀ id ≠ read.id, db'.attached id = db.attached id := by
  rcases hcurrent : db.row? read.id with _ | current
  · have hnone : db.writeStatus (attemptStatus read source chargeResult now) (uuid 0) = none := by
      rw [Db.row?] at hcurrent
      simp only [Tables.writeStatus, attemptStatus_id, hcurrent, insert_attemptStatus,
        Option.map_none]
    have hstatus := (Db.save_eq_some hsave).1
    rw [hnone] at hstatus
    exact absurd hstatus (by simp)
  · obtain ⟨hid, row', hupd, hrow'⟩ := Db.row?_save_self hsave (attemptStatus_id ..) hcurrent
    have htaken := attemptTaken_of_update hupd
    rw [update_attemptStatus htaken] at hupd
    obtain rfl := Option.some_inj.mp hupd
    obtain ⟨created, hcreated, hattached, hothers⟩ := Db.attached_save_fresh hsave rfl
    rw [hid] at hcreated hattached hothers
    obtain rfl : [attemptEntry read.id (uuid 1) now] = created := Option.some_inj.mp hcreated
    exact ⟨current, rfl, htaken, hrow', hattached, hothers⟩

end

/-! ## One purchase, undisturbed -/

theorem serve_pay (env : Env) (userRefId : Option String) (productId : ℚ) (paymentType : String)
    (o : ℕ → Choice) (w : World) :
    serve env (.pay userRefId productId paymentType) o w =
      ((Async.run (perform env)
          (createPaymentTransaction env userRefId productId paymentType) o w).1.map .transaction,
        (Async.run (perform env)
          (createPaymentTransaction env userRefId productId paymentType) o w).2) :=
  run_bind_done (perform env) (createPaymentTransaction env userRefId productId paymentType)
    Response.transaction o w

/-- A purchase stores one new row, or changes nothing. -/
theorem run_createPaymentTransaction (env : Env) (userRefId : Option String) (productId : ℚ)
    (paymentType : String) (o : ℕ → Choice) (w : World) :
    (∃ e, Async.run (perform env) (createPaymentTransaction env userRefId productId paymentType) o w
        = (.error e, w)) ∨
      ∃ tokenPackage now saved db,
        saveOutcome w.db
            (newTransactionStatus env tokenPackage userRefId productId paymentType now) (o 1)
              = some (saved, db) ∧
          Async.run (perform env)
              (createPaymentTransaction env userRefId productId paymentType) o w
            = (.ok saved.id, { w with db }) := by
  rw [createPaymentTransaction_eq, run_await]
  rcases hf : (o 0).fails with _ | _
  · rw [perform_of_answer hf rfl]
    simp only [afterTokenPackage, run_await, later_apply, Nat.zero_add]
    rw [perform_statusSave]
    rcases hsave : saveOutcome w.db (newTransactionStatus env (o 0).tokenPackage userRefId productId
      paymentType (o 0).now) (o 1) with _ | ⟨saved, db⟩
    · left
      exact ⟨.rejected, rfl⟩
    · right
      exact ⟨_, _, _, _, hsave, rfl⟩
  · left
    exact ⟨_, by simp [perform, hf, afterTokenPackage]; rfl⟩

end PaymentService
