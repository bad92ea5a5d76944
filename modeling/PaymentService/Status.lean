import PaymentService.Delivery
import PaymentService.Rows

/-!
# The status of a row

Only an event changes the status of a row, and it does so by copying its own. So a paid row stays
paid, and stays in the list of its user, until an event with another status is recorded in it; a late
or repeated event of the same charge does that as well as an event of another attempt.
-/

namespace PaymentService

open Async

variable {env : Env} {txId : String}

/-- The user of a row never changes. -/
def userOfRow (env : Env) : RowConstant env where
  View := String
  view row := row.userRefId
  charge := by
    intro read row source chargeResult now row' _ hupd
    have huser := (TransactionStatus.updated hupd).userRefId
    exact (Option.some_inj.mp huser).symm
  record := by
    intro info row logs data eventKey now row' hinfo hview hupd
    obtain ⟨status, providerRefId, rfl⟩ := CallbackService.eq_of_update_recordedStatus hinfo hupd
    exact hview

/-- The call is the completed save, to the row, of an event that does not say `successful`. -/
def recordsOther (txId : String) (q : Request) : (c : Call) → Except JsError c.Reply → Bool
  | .statusSave obj, .ok _ =>
    match q with
    | .omiseCallback _ _ => obj.id = some txId && !q.claims ChargeStatuses.successful.value
    | _ => false
  | _, _ => false

/-- The row is there and paid. -/
def PaidRow (txId : String) (db : Db) : Prop :=
  ∃ row, db.row? txId = some row ∧ row.status = ChargeStatuses.successful.value

theorem paidRow_save {db db' : Db} {q : Request} {obj : StatusObject} {uuid : ℕ → String}
    {saved : SavedStatus} {now : Date} (hissues : Issues env (fun _ ↦ True) q (.statusSave obj))
    (h : PaidRow txId db) (hsave : db.save obj uuid = some (saved, db'))
    (hkept : recordsOther txId q (.statusSave obj) (.ok (saved, now)) = false) :
    PaidRow txId db' := by
  obtain ⟨row, hrow, hpaid⟩ := h
  by_cases hid : obj.id = some txId
  · obtain ⟨-, row', hupd, hrow'⟩ := Db.row?_save_self hsave hid hrow
    have hstatus := (TransactionStatus.updated hupd).status
    refine ⟨row', hrow', ?_⟩
    rcases RowProperty.issues_statusSave hissues with
      ⟨user, product, type, tokenPackage, now, -, rfl⟩ |
      ⟨t, read, source, type, productId, chargeResult, now, -, -, -, -, rfl⟩ |
      ⟨body, headers, info, logs, now, rfl, -, -, rfl⟩
    · exact absurd hid (by simp [newTransactionStatus])
    · -- A charge leaves the status alone.
      rw [attemptStatus_status, Column.writeRequired_undefined] at hstatus
      rw [← Option.some_inj.mp hstatus, hpaid]
    · -- An event writes its own status.
      have hinfo : info.id = txId := Option.some_inj.mp hid
      have hclaims : ((body.prop "data").prop "status").isStr ChargeStatuses.successful.value
          = true := by
        simpa [recordsOther, hinfo, Request.claims] using hkept
      have hfits : Sql.FitsVarchar 10 ChargeStatuses.successful.value := by decide
      rw [CallbackService.recordedStatus_status, Js.isStr_iff.mp hclaims, Env.column_str,
        Column.writeRequired_value, Sql.varchar_of_fits hfits] at hstatus
      exact (Option.some_inj.mp hstatus).symm
  · exact ⟨row, Db.row?_save_of_ne hsave hid hrow, hpaid⟩

theorem paidRow_advance {p : Server} (hholds : (RowProperty.trivial env).contract.Holds p)
    (a : Step) (h : PaidRow txId p.world.db)
    (hkept : ∀ e ∈ ((system env).advance p a).1, e.counts (recordsOther txId) = false) :
    PaidRow txId ((system env).advance p a).2.world.db := by
  rcases db_advance_cases env p a with ⟨hsame, -⟩ |
    ⟨i, q, obj, k, o, saved, db, hi, hsave, hcall, hworld⟩
  · rw [hsame]
    exact h
  · have hissues : Issues env (fun _ ↦ True) q (.statusSave obj) := hholds.guarantee hi
    have hkept' : recordsOther txId q (.statusSave obj) (.ok (saved, o.now)) = false :=
      hkept _ hcall
    rw [hworld]
    exact paidRow_save hissues h hsave hkept'

/-- In every run: a paid row stays paid, stays with its user and stays in the list of the user, as
long as no event with another status is recorded in it. -/
theorem paid_row_stays (env : Env) (w : World) (txId : String) (as bs : List Step)
    (row : TransactionStatus)
    (hrow : ((system env).run (Server.start w) as).world.db.row? txId = some row)
    (hpaid : row.status = ChargeStatuses.successful.value)
    (hkept : ∀ e ∈ (system env).trace ((system env).run (Server.start w) as) bs,
      e.counts (recordsOther txId) = false) :
    ∃ row', ((system env).run (Server.start w) (as ++ bs)).world.db.row? txId = some row' ∧
      row'.status = ChargeStatuses.successful.value ∧ row'.userRefId = row.userRefId ∧
      row' ∈ transactionsOfUser ((system env).run (Server.start w) (as ++ bs)).world.db
        row.userRefId := by
  have hholds := System.Contract.holds_run (RowProperty.holds_start env w) as
  obtain ⟨-, row', hrow', hpaid'⟩ := System.run_inv_of_trace
    (I := fun p ↦ (RowProperty.trivial env).contract.Holds p ∧ PaidRow txId p.world.db)
    (fun p a hp hkept ↦
      ⟨System.Contract.holds_advance hp.1 a, paidRow_advance hp.1 a hp.2 hkept⟩)
    ⟨hholds, row, hrow, hpaid⟩ bs hkept
  obtain ⟨same, hsame, huser⟩ := (userOfRow env).row?_run hrow bs
  obtain rfl := Option.some_inj.mp (hrow'.symm.trans hsame)
  rw [System.run_append]
  refine ⟨row', hrow', hpaid', huser, ?_⟩
  have hpending : ChargeStatuses.successful.value ≠ ChargeStatuses.pending.value := by decide
  refine List.mem_filter.mpr ⟨(Db.row?_eq_some_iff.mp hrow').1, ?_⟩
  rw [decide_eq_true_eq, hpaid']
  exact ⟨huser, hpending⟩

/-- The order is paid, and its event has been recorded. -/
def Shop.recorded : List Step := Shop.paidFor ++ Shop.delivery 2 .complete Shop.paidCharge "hook"

/-- The paid order is still listed after a second event of its charge. -/
theorem paid_row_stays_in_shop :
    ∃ row ∈ transactionsOfUser ((system Shop.platform).run (Server.start World.empty)
        (Shop.recorded ++ Shop.delivery 3 .update Shop.paidCharge "again")).world.db "buyer",
      row.status = ChargeStatuses.successful.value := by
  have hpaid : ((Shop.after Shop.recorded).world.db.row? Shop.orderId).map
      (fun row ↦ (row.status, row.userRefId)) =
        some (ChargeStatuses.successful.value, "buyer") := by decide +kernel
  obtain ⟨row, hrow, hpair⟩ := Option.map_eq_some_iff.mp hpaid
  obtain ⟨hstatus, huser⟩ := Prod.mk.inj hpair
  obtain ⟨row', -, hstatus', -, hlisted⟩ := paid_row_stays Shop.platform World.empty Shop.orderId
    Shop.recorded (Shop.delivery 3 .update Shop.paidCharge "again") row hrow hstatus
    (by decide +kernel)
  rw [huser] at hlisted
  exact ⟨row', hlisted, hstatus'⟩

/-- The order is paid and listed, and then an event from before the payment is delivered late: the
order is pending again and not in the list. -/
theorem paid_order_disappears :
    ∃ paid ∈ (Shop.after Shop.paidFor).world.provider.snapshots,
      ∃ late ∈ (Shop.after Shop.paidFor).world.provider.snapshots,
        paid.status = ChargeStatuses.successful.value ∧
        late.status = ChargeStatuses.pending.value ∧ late.id = paid.id ∧
        (transactionsOfUser ((system Shop.platform).run (Shop.after Shop.paidFor)
            (Shop.delivery 2 .complete paid "hook")).world.db "buyer").map (·.status) =
          [ChargeStatuses.successful.value] ∧
        ((system Shop.platform).run (Shop.after Shop.paidFor)
            (Shop.delivery 2 .complete paid "hook" ++
              Shop.delivery 3 .create late "late")).world.db.statuses.map (·.status) =
          [ChargeStatuses.pending.value] ∧
        (transactionsOfUser ((system Shop.platform).run (Shop.after Shop.paidFor)
            (Shop.delivery 2 .complete paid "hook" ++
              Shop.delivery 3 .create late "late")).world.db "buyer").length = 0 := by
  decide +kernel

end PaymentService
