import PaymentService.Async.Accounting
import PaymentService.Rows

/-!
# Credits

A credit message is sent when an event says `successful`, and nothing remembers that one was sent
before. So the number of credits of a transaction is bounded by the number of deliveries and by
nothing smaller: every delivery that claims success and whose lookup comes out at the transaction
pays for at most one message.

The count is an instance of the accounting rule: a lookup earns one credit, a message spends one.
-/

namespace PaymentService

open Async

variable {env : Env}

/-! ## What is counted -/

/-- The number of credit messages sent for a transaction. -/
def World.credits (w : World) (txId : String) : ℕ :=
  w.queue.countP (·.attributes.transactionId = txId)

/-- The call sends a credit message for a transaction. -/
def creditsTransaction (txId : String) : (c : Call) → Except JsError c.Reply → Bool
  | .sqsSendMessage msg, .ok _ => msg.attributes.transactionId = txId
  | _, _ => false

/-- The call is the lookup of an event that claims success, and it comes out at the transaction. -/
def resolvesSuccess (txId : String) (q : Request) : (c : Call) → Except JsError c.Reply → Bool
  | .statusFindOne _, .ok (some (row, _), _) =>
    q.claims ChargeStatuses.successful.value && row.id = txId
  | _, _ => false

/-- The call is a lookup on behalf of an event that claims success. -/
def looksUpSuccess (q : Request) : (c : Call) → Except JsError c.Reply → Bool
  | .statusFindOne _, _ => q.claims ChargeStatuses.successful.value
  | _, _ => false

theorem looksUp_of_resolves {txId : String} {e : Event}
    (h : e.counts (resolvesSuccess txId) = true) : e.counts looksUpSuccess = true := by
  obtain ⟨i, q, c, r⟩ := e
  cases c with
  | statusFindOne source =>
    rcases r with _ | ⟨_ | ⟨row, logs⟩, now⟩
    · exact absurd h (by simp [Occurrence.counts, resolvesSuccess])
    · exact absurd h (by simp [Occurrence.counts, resolvesSuccess])
    · simp only [Occurrence.counts, resolvesSuccess, Bool.and_eq_true] at h
      exact h.1
  | _ => exact absurd h (by simp [Occurrence.counts, resolvesSuccess])

/-- The call sends a credit message for a transaction in `P`. -/
def creditsWhere (P : String → Bool) : (c : Call) → Except JsError c.Reply → Bool
  | .sqsSendMessage msg, .ok _ => P msg.attributes.transactionId
  | _, _ => false

theorem creditsTransaction_eq (txId : String) :
    creditsTransaction txId = creditsWhere fun t ↦ t = txId := by
  funext c r
  cases c <;> cases r <;> rfl

theorem countP_queue_run (env : Env) (P : String → Bool) (p : Server) (as : List Step) :
    ((system env).run p as).world.queue.countP (fun msg ↦ P msg.attributes.transactionId) =
      p.world.queue.countP (fun msg ↦ P msg.attributes.transactionId) +
        ((system env).trace p as).countP (·.counts fun _ ↦ creditsWhere P) := by
  refine System.measure_run (S := system env)
    (m := fun w ↦ w.queue.countP fun msg ↦ P msg.attributes.transactionId) (fun w c o ↦ ?_)
    (fun w b ↦ congrArg (List.countP _) (Move.queue_apply w b)) p as
  change (perform env w c o).2.queue.countP _ = w.queue.countP _
    + (creditsWhere P c (perform env w c o).1).toNat
  by_cases hc : ∀ msg, c ≠ .sqsSendMessage msg
  · have hcount : creditsWhere P c (perform env w c o).1 = false := by
      cases c <;> first | rfl | exact absurd rfl (hc _)
    rw [queue_perform env hc, hcount]
    rfl
  · push Not at hc
    obtain ⟨msg, rfl⟩ := hc
    rcases perform_cases env w (.sqsSendMessage msg) o with
      ⟨heq, -⟩ | ⟨_, w', -, hanswer, heq⟩
    · rw [heq]
      rfl
    · obtain ⟨-, rfl⟩ := Prod.mk.inj (Option.some_inj.mp hanswer)
      rw [heq]
      simp only [creditsWhere, List.countP_append, List.countP_singleton]
      cases P msg.attributes.transactionId <;> rfl

theorem credits_run (env : Env) (txId : String) (p : Server) (as : List Step) :
    ((system env).run p as).world.credits txId = p.world.credits txId +
      ((system env).trace p as).countP (·.counts fun _ ↦ creditsTransaction txId) := by
  rw [creditsTransaction_eq]
  exact countP_queue_run env (fun t ↦ t = txId) p as

/-! ## The accounts of a delivery -/

section Accounts

open CallbackService CallbackController

variable {P : String → Bool} {earn : (c : Call) → Except JsError c.Reply → Bool}

theorem free_of_notification {p : Program Unit}
    (hp : Always (fun c ↦ ∃ payload, c = .notificationPost payload) p) (b : ℕ) :
    Solvent (creditsWhere P) earn b p :=
  .of_always (hp.mono (fun _ ⟨_, hc⟩ ↦ by rw [hc]; exact fun _ ↦ rfl) fun _ ↦ id) b

theorem solvent_announced (info : TransactionStatus) {data : Js} {b : ℕ}
    (hb : (data.prop "status").isStr ChargeStatuses.successful.value = true →
      P info.id = true → 1 ≤ b) :
    Solvent (creditsWhere P) earn b (announced env info data) := by
  rcases hdue : creditDue env info data with _ | msg
  · exact free_of_notification (always_announced_of_no_credit hdue) b
  · obtain ⟨hid, hstatus⟩ := transactionId_of_creditDue hdue
    rw [announced_of_creditDue hdue]
    rcases hP : P info.id with _ | _
    · refine .skip (fun r ↦ ?_) fun r ↦ free_of_notification (always_afterCredit env msg r) b
      cases r with
      | error e => rfl
      | ok _ => rw [creditsWhere, hid, hP]
    · obtain ⟨b, rfl⟩ := Nat.exists_eq_add_of_le' (hb hstatus hP)
      exact .pay fun r ↦ free_of_notification (always_afterCredit env msg r) b

variable (txId : String) (body : Js) (headers : Headers)

/-- The lookup earns what the announcement may spend. -/
private theorem solvent_handle :
    Solvent (creditsTransaction txId) (resolvesSuccess txId (.omiseCallback body headers)) 0
      (handleOmiseCallBack env body headers) := by
  rw [creditsTransaction_eq]
  refine handleOmiseCallBack_elim trivial (fun _ ↦ trivial) (.skip (fun _ ↦ rfl) fun r ↦ ?_)
  cases r with
  | error e => trivial
  | ok _ =>
    rw [afterFindCharge]
    refine createTransactionLog_elim trivial fun sourceId _ r ↦ ?_
    rcases r with e | ⟨_ | ⟨info, logs⟩, now⟩
    · exact ⟨0, by simp [creditsWhere], trivial⟩
    · exact ⟨0, by simp [creditsWhere], trivial⟩
    · -- The unit the lookup has earned is carried over the save.
      refine ⟨(Request.claims ChargeStatuses.successful.value (.omiseCallback body headers)
        && info.id = txId).toNat, by simp [creditsWhere, resolvesSuccess], ?_⟩
      refine .skip (fun _ ↦ rfl) fun r ↦ ?_
      cases r with
      | error e => trivial
      | ok _ =>
        refine solvent_announced info fun hstatus hid ↦ ?_
        simp [Request.claims, hstatus, of_decide_eq_true hid]

private theorem solvent_lookup :
    Solvent (looksUpSuccess (.omiseCallback body headers)) (fun _ _ ↦ false)
      (Request.claims ChargeStatuses.successful.value (.omiseCallback body headers)).toNat
      (handleOmiseCallBack env body headers) := by
  refine handleOmiseCallBack_elim trivial (fun _ ↦ trivial) (.skip (fun _ ↦ rfl) fun r ↦ ?_)
  cases r with
  | error e => trivial
  | ok _ =>
    rw [afterFindCharge]
    refine createTransactionLog_elim trivial fun sourceId _ r ↦ ?_
    refine ⟨0, by rw [looksUpSuccess]; simp, .of_always ?_ 0⟩
    -- Nothing after the lookup is a lookup.
    rcases r with e | ⟨_ | ⟨info, logs⟩, now⟩
    · trivial
    · trivial
    · refine ⟨fun _ ↦ rfl, fun r _ ↦ ?_⟩
      cases r with
      | error e => trivial
      | ok _ =>
        refine (always_announced env info _).mono (fun c hc r ↦ ?_) fun _ ↦ id
        rcases hc with ⟨msg, rfl⟩ | ⟨payload, rfl⟩ <;> rfl

end Accounts

/-! ## One credit a delivery -/

theorem solvent_program (env : Env) (q : Request) {b : ℕ}
    {spend earn : (c : Call) → Except JsError c.Reply → Bool}
    (hfree : ∀ c : Call, c.ofWebhook = false → ∀ r, spend c r = false)
    (hhook : ∀ body headers, q = .omiseCallback body headers →
      Solvent spend earn b (CallbackController.handleOmiseCallBack env body headers)) :
    Solvent spend earn b (program env q) := by
  cases q with
  | pay user product type =>
    have hquiet := (always_createPaymentTransaction env user product type).mono hfree fun _ ↦ id
    exact .bind_done (.of_always hquiet b) fun _ ↦ trivial
  | charge tx source =>
    have hquiet := (always_charge env tx source).mono hfree fun _ ↦ id
    exact .bind_done (.of_always hquiet b) fun _ ↦ trivial
  | omiseCallback body headers => exact .bind_done (hhook body headers rfl) fun _ ↦ trivial

private theorem solvent_credits (env : Env) (txId : String) (q : Request) :
    Solvent (creditsTransaction txId) (resolvesSuccess txId q) 0 (program env q) := by
  refine solvent_program env q (fun c hc r ↦ ?_) ?_
  · cases c <;> first | rfl | exact absurd hc (by simp [Call.ofWebhook])
  · rintro body headers rfl
    exact solvent_handle txId body headers

private theorem solvent_lookups (env : Env) (q : Request) :
    Solvent (looksUpSuccess q) (fun _ _ ↦ false)
      (q.claims ChargeStatuses.successful.value).toNat (program env q) := by
  refine solvent_program env q (fun c hc r ↦ ?_) ?_
  · cases c <;> first | rfl | exact absurd hc (by simp [Call.ofWebhook])
  · rintro body headers rfl
    exact solvent_lookup body headers

/-- In every run, from any state: a transaction is credited at most once for each delivery that
claims success and resolves to it, and a delivery resolves at most once. -/
theorem credits_le_deliveries (env : Env) (w : World) (txId : String) (as : List Step) :
    ((system env).run (Server.start w) as).world.credits txId ≤ w.credits txId +
        ((system env).trace (Server.start w) as).countP (·.counts (resolvesSuccess txId)) ∧
      ((system env).trace (Server.start w) as).countP (·.counts (resolvesSuccess txId)) ≤
        (System.arrivals as).countP (·.claims ChargeStatuses.successful.value) := by
  constructor
  · have hle := System.countP_spend_start (S := system env) (solvent_credits env txId) w as
    rw [credits_run]
    refine Nat.add_le_add_left ?_ _
    simpa using hle
  · have hle := System.countP_spend_start (S := system env) (solvent_lookups env) w as
    rw [sum_map_toNat] at hle
    have hsub : ((system env).trace (Server.start w) as).countP (·.counts (resolvesSuccess txId)) ≤
        ((system env).trace (Server.start w) as).countP (·.counts looksUpSuccess) := by
      refine List.countP_mono_left fun e _ he ↦ looksUp_of_resolves he
    simpa [Occurrence.counts] using hsub.trans hle

/-- Two events of one paid charge, handled one after the other, credit the order twice. -/
theorem two_credits_for_one_order :
    ∃ charge ∈ (Shop.after Shop.paidFor).world.provider.snapshots,
      charge.status = ChargeStatuses.successful.value ∧
        ((system Shop.platform).run (Shop.after Shop.paidFor)
          (Shop.delivery 2 .complete charge "hook" ++
            Shop.delivery 3 .update charge "again")).world.credits Shop.orderId = 2 := by
  decide +kernel

end PaymentService
