import PaymentService.Purchase

/-!
# When a charge is asked for

A charge is routed by the source: a card token goes to the provider as a card, a source whose type
is supported goes there as a source. Together with the transaction these decide whether the provider
is asked at all; when it is not, nothing is written either. The payment type that the transaction was
bought with has no part in it.
-/

namespace PaymentService

open Async

variable {env : Env}

/-! ## Routing -/

/-- The source has a type that can be charged, given how its lookup comes out. -/
def Routed (source : String) (o : Choice) : Prop :=
  Js.startsWith source "tokn_" = true ∨
    Js.startsWith source "src_" = true ∧ o.fails = false ∧ o.sourceType ∈ PaymentTypeEnum.values

/-- The source is routed, and the database has the transaction and answers. -/
structure Chargeable (w : World) (txId source : String) (o : ℕ → Choice) : Prop where
  routed : Routed source (o 0)
  answered : ((resolveType source o).2 0).fails = false
  found : ∃ row, w.db.find? txId = some row

/-- The provider is asked for a charge with the source as a card or as a source, by its prefix. -/
structure RequestedWith (source : String) (request : ChargeRequest) : Prop where
  card : Js.startsWith source "tokn_" = true → request.card = some source ∧ request.source = none
  source : Js.startsWith source "src_" = true → request.source = some source ∧ request.card = none

theorem not_startsWith_both {source : String} (h : Js.startsWith source "tokn_" = true) :
    Js.startsWith source "src_" = false := by
  refine Bool.eq_false_iff.mpr fun hsource ↦ ?_
  have hboth := List.prefix_of_prefix_length_le (List.isPrefixOf_iff_prefix.mp hsource)
    (List.isPrefixOf_iff_prefix.mp h) (by decide)
  exact absurd hboth (by decide)

theorem supportedPaymentType_some {type : String} :
    supportedPaymentType (some type) = true ↔ type ∈ PaymentTypeEnum.values := by
  simp only [supportedPaymentType, ne_eq, decide_not, Bool.and_eq_true, Bool.not_eq_true',
    decide_eq_false_iff_not, List.contains_iff_mem, and_iff_right_iff_imp]
  rintro hmem rfl
  exact absurd hmem (by decide)

theorem supportedPaymentType_resolveType (source : String) (o : ℕ → Choice) :
    supportedPaymentType (resolveType source o).1 = true ↔ Routed source (o 0) := by
  unfold resolveType Routed
  split
  · next htoken =>
    refine iff_of_true ?_ (Or.inl htoken)
    exact supportedPaymentType_some.mpr (by decide)
  · next htoken =>
    split
    · next hsource =>
      rcases hfails : (o 0).fails with _ | _
      · simp [htoken, hsource, supportedPaymentType_some]
      · simp [htoken, supportedPaymentType]
    · next hsource => simp [htoken, hsource, supportedPaymentType]

theorem requestedWith_chargeRequest {source : String} {o : ℕ → Choice}
    (hlookup : Js.startsWith source "src_" = true → (o 0).sourceType ≠ PaymentTypeEnum.card.value)
    (row : TransactionStatus) (productId : Js) :
    RequestedWith source (chargeRequest env row source (resolveType source o).1 productId) := by
  constructor
  · intro htoken
    have htype : (resolveType source o).1 = some PaymentTypeEnum.card.value := by
      simp only [resolveType, htoken, if_true]
    rw [htype]
    exact ⟨rfl, rfl⟩
  · intro hsource
    have hne : (resolveType source o).1 ≠ some PaymentTypeEnum.card.value := by
      unfold resolveType
      split
      · next htoken =>
        rw [not_startsWith_both htoken] at hsource
        cases hsource
      · have hother : (if (o 0).fails then none else some (o 0).sourceType) ≠
            some PaymentTypeEnum.card.value := by
          split
          · exact fun h ↦ by cases h
          · exact fun h ↦ hlookup hsource (Option.some.inj h)
        simpa only [hsource, if_true] using hother
    simp only [chargeRequest, hne, ne_eq, not_false_eq_true, if_true, if_false, and_self]

/-! ## The calls of a charge -/

/-- The calls by which a charge finds out about its source and its transaction. -/
def Call.looksUp : Call → Bool
  | sourcesRetrieve _ => true
  | statusFindOneByOrFail _ => true
  | _ => false

section Calls

variable {w : World} {txId source : String} {o : ℕ → Choice}

theorem savesStatus_of_mem_performed {row : TransactionStatus}
    {r : Except JsError (Charge × Date)} {o : ℕ → Choice} {w : World}
    {e : (c : Call) × Except JsError c.Reply}
    (he : e ∈ performed (perform env) (afterCreateCharge row source r) o w) :
    e.1.savesStatus = true := by
  rcases r with e | ⟨chargeResult, now⟩
  · cases he
  · rw [afterCreateCharge, performed] at he
    rcases List.mem_cons.mp he with rfl | he
    · rfl
    · rcases hr : (perform env w (.statusSave (attemptStatus row source chargeResult now)) (o 0)).1
        with e | saved <;> rw [hr] at he <;> cases he

variable (env source) in
theorem performed_afterFindOneByOrFail (type : Option String) {row : TransactionStatus}
    {productId : Js} (hproduct : row.metadata.get? "productId" = some productId) (now : Date)
    (o : ℕ → Choice) (w : World) :
    ∃ reply saves, performed (perform env) (afterFindOneByOrFail env source type (.ok (row, now))) o
        w = ⟨Call.chargesCreate (chargeRequest env row source type productId), reply⟩ :: saves ∧
      ∀ e ∈ saves, e.1.savesStatus = true := by
  rw [afterFindOneByOrFail, chargeRow, hproduct]
  exact ⟨_, _, rfl, fun e he ↦ savesStatus_of_mem_performed he⟩

variable (env) in
/-- A charge that can be asked for is asked for, after the lookups and before the save. -/
theorem performed_charge_of_chargeable {row : TransactionStatus} {productId : Js}
    (h : Chargeable w txId source o) (hrow : w.db.find? txId = some row)
    (hproduct : row.metadata.get? "productId" = some productId) :
    ∃ lookups reply saves, performed (perform env) (charge env txId source) o w =
        lookups ++ ⟨Call.chargesCreate
          (chargeRequest env row source (resolveType source o).1 productId), reply⟩ :: saves ∧
      (∀ e ∈ lookups, e.1.looksUp = true) ∧ ∀ e ∈ saves, e.1.savesStatus = true := by
  obtain ⟨asked, hasked, hcalls⟩ := performed_charge env txId source o w
  have hread : answer env w ((resolveType source o).2 0) (.statusFindOneByOrFail txId) =
      some (row, w) := by rw [answer, hrow, Option.map_some]
  obtain ⟨reply, saves, hcreated, hsaves⟩ := performed_afterFindOneByOrFail env source
    (resolveType source o).1 hproduct ((resolveType source o).2 0).now
    (later (resolveType source o).2) w
  refine ⟨asked ++ [⟨.statusFindOneByOrFail txId, .ok (row, ((resolveType source o).2 0).now)⟩],
    reply, saves, ?_, ?_, hsaves⟩
  · rw [hcalls, chargeTyped, if_pos ((supportedPaymentType_resolveType source o).mpr h.routed),
      performed_await_of (perform env) (perform_of_answer h.answered hread), hcreated,
      List.append_assoc]
    rfl
  · intro e he
    rcases List.mem_append.mp he with he | he
    · rw [hasked e he]
      rfl
    · rw [List.mem_singleton.mp he]
      rfl

/-- A charge that cannot be asked for is not, and nothing is written. -/
theorem performed_charge_of_not_chargeable (h : ¬Chargeable w txId source o) :
    ∀ e ∈ performed (perform env) (charge env txId source) o w, e.1.looksUp = true := by
  obtain ⟨asked, hasked, hcalls⟩ := performed_charge env txId source o w
  rw [hcalls]
  intro e he
  rcases List.mem_append.mp he with he | he
  · rw [hasked e he]
    rfl
  rw [chargeTyped] at he
  split at he
  swap
  · cases he
  next hsupported =>
    -- The lookup of the transaction is the last call, since it does not return a row.
    obtain ⟨error, hlookup⟩ : ∃ error, (perform env w (.statusFindOneByOrFail txId)
        ((resolveType source o).2 0)).1 = .error error := by
      rcases perform_cases env w (.statusFindOneByOrFail txId) ((resolveType source o).2 0) with
        ⟨heq, -⟩ | ⟨row, w', hanswered, hanswer, -⟩
      · exact ⟨.rejected, by rw [heq]⟩
      · obtain ⟨row, hrow, -⟩ := Option.map_eq_some_iff.mp hanswer
        exact absurd ⟨(supportedPaymentType_resolveType source o).mp hsupported, hanswered,
          row, hrow⟩ h
    rw [performed, hlookup] at he
    rcases List.mem_cons.mp he with rfl | he
    · rfl
    · cases he

end Calls

theorem nullish_metadata_run {provider : Provider} {as : List Step} {txId : String}
    {row : TransactionStatus}
    (hrow : ((system env).run (Server.start (World.fresh provider)) as).world.db.find? txId =
      some row) :
    row.metadata.nullish = false := by
  have hfound := (Db.find?_eq_some_iff.mp hrow).2
  obtain ⟨p, hmade⟩ := made_of_past rfl (List.append_nil as).symm hfound
  exact (hmade.stored_of_past (List.append_nil as).symm hfound).nullish_metadata

/-- In every state that the service can reach, however requests have interleaved before: a charge
asks the provider exactly when its source is routed and its transaction is found, with a token as a
card and a source as a source; otherwise it rejects, asks nothing but what it has to look up, and
leaves everything as it was. -/
theorem charge_outcome (env : Env) (provider : Provider) (as : List Step) (txId source : String)
    (o : ℕ → Choice)
    (hlookup : Js.startsWith source "src_" = true → (o 0).sourceType ≠ PaymentTypeEnum.card.value) :
    (Chargeable ((system env).run (Server.start (World.fresh provider)) as).world txId source o →
        ∃ lookups request reply saves, performed (perform env) (charge env txId source) o
            ((system env).run (Server.start (World.fresh provider)) as).world =
          lookups ++ ⟨Call.chargesCreate request, reply⟩ :: saves ∧
          RequestedWith source request ∧
          (∀ e ∈ lookups, e.1.looksUp = true) ∧ ∀ e ∈ saves, e.1.savesStatus = true) ∧
      (¬Chargeable ((system env).run (Server.start (World.fresh provider)) as).world txId source
          o →
        (∃ e, Async.run (perform env) (charge env txId source) o
            ((system env).run (Server.start (World.fresh provider)) as).world =
          (.error e, ((system env).run (Server.start (World.fresh provider)) as).world)) ∧
        ∀ e ∈ performed (perform env) (charge env txId source) o
            ((system env).run (Server.start (World.fresh provider)) as).world,
          e.1.looksUp = true) := by
  constructor
  · intro h
    obtain ⟨row, hrow⟩ := h.found
    have hproduct := Js.get?_of_not_nullish (nullish_metadata_run hrow) "productId"
    obtain ⟨lookups, reply, saves, hcalls, hlookups, hsaves⟩ :=
      performed_charge_of_chargeable env h hrow hproduct
    exact ⟨lookups, _, reply, saves, hcalls, requestedWith_chargeRequest hlookup row _, hlookups,
      hsaves⟩
  · intro h
    refine ⟨run_charge_of_not_created (fun row productId hcreated ↦ h ?_) env,
      performed_charge_of_not_chargeable h⟩
    exact ⟨(supportedPaymentType_resolveType source o).mp hcreated.supported, hcreated.lookup,
      row, hcreated.found⟩

/-- The buyer's transaction is charged with a source for `promptpay`. -/
theorem charge_outcome_promptpay :
    ∃ lookups request reply saves, performed (perform Shop.platform)
        (charge Shop.platform Shop.orderId "src_1") (fun _ ↦ Shop.choice "first")
        (Shop.after Shop.purchase).world =
      lookups ++ ⟨Call.chargesCreate request, reply⟩ :: saves ∧
      RequestedWith "src_1" request ∧
      (∀ e ∈ lookups, e.1.looksUp = true) ∧ ∀ e ∈ saves, e.1.savesStatus = true := by
  have hfound : ((Shop.after Shop.purchase).world.db.find? Shop.orderId).isSome = true := by
    decide +kernel
  have hchargeable : Chargeable (Shop.after Shop.purchase).world Shop.orderId "src_1"
      fun _ ↦ Shop.choice "first" :=
    ⟨Or.inr ⟨by decide, rfl, by decide⟩, rfl, Option.isSome_iff_exists.mp hfound⟩
  exact (charge_outcome Shop.platform ⟨[], []⟩ Shop.purchase Shop.orderId "src_1"
    (fun _ ↦ Shop.choice "first") fun _ ↦ by decide).1 hchargeable

/-! ## The payment method -/

/-- In every state that the service can reach, a charge asks the provider exactly when the type of its
source is supported and the transaction is found. -/
theorem requests_charge_iff (env : Env) (provider : Provider) (as : List Step) (txId source : String)
    (o : ℕ → Choice) :
    (∃ request reply, ⟨Call.chargesCreate request, reply⟩ ∈
        performed (perform env) (charge env txId source) o
          ((system env).run (Server.start (World.fresh provider)) as).world) ↔
      (∃ type ∈ PaymentTypeEnum.values, (resolveType source o).1 = some type) ∧
        ((resolveType source o).2 0).fails = false ∧
        ∃ row, ((system env).run (Server.start (World.fresh provider)) as).world.db.find? txId =
          some row := by
  have hrouted : (∃ type ∈ PaymentTypeEnum.values, (resolveType source o).1 = some type) ↔
      Routed source (o 0) := by
    rw [← supportedPaymentType_resolveType]
    rcases htype : (resolveType source o).1 with _ | type
    · simp [supportedPaymentType]
    · simp [supportedPaymentType_some]
  rw [hrouted]
  constructor
  · rintro ⟨request, reply, hmem⟩
    by_contra hnot
    have hlooks := performed_charge_of_not_chargeable (fun h ↦ hnot ⟨h.1, h.2, h.3⟩) _ hmem
    cases hlooks
  · rintro ⟨hroute, hanswered, row, hrow⟩
    have hproduct := Js.get?_of_not_nullish (nullish_metadata_run hrow) "productId"
    obtain ⟨lookups, reply, saves, hcalls, -, -⟩ :=
      performed_charge_of_chargeable env ⟨hroute, hanswered, row, hrow⟩ hrow hproduct
    refine ⟨_, reply, ?_⟩
    rw [hcalls]
    exact List.mem_append_right _ List.mem_cons_self

/-- In every run, whatever else the provider has charged: a charge is asked for only with a source of
a supported type; from every state that is reached it is asked for exactly when the type of the source
is supported, whichever it is, and the transaction is found; the type that the row has is no part of
it; and the bonus that is credited contains that of the type that the purchase was made with. -/
theorem bonus_of_purchase (env : Env) (provider : Provider) (as : List Step) :
    (∀ e ∈ (system env).trace (Server.start (World.fresh provider)) as, ∀ request,
        e.call = .chargesCreate request → ∃ type,
          ResolvedType (System.Heard ((system env).trace (Server.start (World.fresh provider)) as)
            e.task e.request) request.metadata.sourceId (some type) ∧
          type ∈ PaymentTypeEnum.values) ∧
      (∀ (txId source : String) (o : ℕ → Choice),
        (∃ request reply, ⟨Call.chargesCreate request, reply⟩ ∈
            performed (perform env) (charge env txId source) o
              ((system env).run (Server.start (World.fresh provider)) as).world) ↔
          (∃ type ∈ PaymentTypeEnum.values, (resolveType source o).1 = some type) ∧
            ((resolveType source o).2 0).fails = false ∧
            ∃ row, ((system env).run (Server.start (World.fresh provider)) as).world.db.find? txId =
              some row) ∧
      (∀ (w : World) (db : Db) (txId source type : String) (row : TransactionStatus)
        (o : ℕ → Choice), w.db.find? txId = some row →
          db.find? txId = some { row with paymentType := type } →
            (serve env (.charge txId source) o { w with db }).2.provider =
              (serve env (.charge txId source) o w).2.provider) ∧
      ∀ e ∈ (system env).trace (Server.start (World.fresh provider)) as, ∀ msg,
        e.call = .sqsSendMessage msg →
          ∃ (p : Purchase) (row : TransactionStatus),
            p.Made env ((system env).trace (Server.start (World.fresh provider)) as)
              msg.attributes.transactionId ∧
            ((system env).run (Server.start (World.fresh provider)) as).world.db.row?
              msg.attributes.transactionId = some row ∧
            Sql.varchar 50 p.paymentType = some row.paymentType ∧
            msg.attributes.metadata.bonusCoins = env.printNumber
              (p.tokenPackage.bonus.getD 0 + paymentBonus p.tokenPackage p.paymentType) := by
  refine ⟨fun e he request hcreate ↦ ?_, requests_charge_iff env provider as,
    fun w db txId source type row o hrow hrow' ↦ ?_, fun e he msg hmsg ↦ ?_⟩
  · obtain ⟨bs, cs, txId, row, source, type, productId, -, -, -, -, rfl, htype, hsupported⟩ :=
      row?_of_create he hcreate
    rcases type with _ | type
    · cases hsupported
    · exact ⟨type, htype, supportedPaymentType_some.mp hsupported⟩
  · exact provider_serve_charge_of_alike env hrow hrow' ⟨rfl, rfl, rfl, rfl, rfl⟩ source o
  · obtain ⟨bs, cs, info, data, has, hinfo, hdue⟩ := row?_of_credit he hmsg
    obtain ⟨p, hmade⟩ := made_of_past rfl has hinfo
    rw [← (CallbackService.transactionId_of_creditDue hdue).1] at hmade
    obtain ⟨row, hrow, hstored⟩ := hmade.stored
    exact ⟨p, row, hmade, hrow, hstored.paymentType, (hmade.credited he hmsg).bonusCoins⟩

/-- The order was made for `promptpay`, is paid with a card and confirmed. -/
def Shop.paidByCard : List Step :=
  purchase ++ payment 1 "tokn_1" "first" ++
    [.env (.settle "first1" ChargeStatuses.successful.value)] ++
    delivery 2 .complete
      { paidCharge with id := "first1", metadata := ⟨Shop.orderId, "buyer", "tokn_1", .undefined⟩ }
      "hook"

/-- The package has no bonus for cards, and the card earns the bonus for `promptpay`. -/
theorem card_earns_promptpay_bonus :
    OmiseService.findPaymentTypeFromSourceId "tokn_1" = pure (some PaymentTypeEnum.card.value) ∧
      (Shop.after Shop.paidByCard).world.provider.charges.map
          (fun charge ↦ (charge.metadata.txId, charge.metadata.sourceId, charge.status)) =
        [(Shop.orderId, "tokn_1", ChargeStatuses.successful.value)] ∧
      (Shop.after Shop.paidByCard).world.db.statuses.map (fun row ↦ (row.id, row.paymentType)) =
        [(Shop.orderId, PaymentTypeEnum.qr.value)] ∧
      paymentBonus Shop.tokenPackage PaymentTypeEnum.card.value = 0 ∧
      paymentBonus Shop.tokenPackage PaymentTypeEnum.qr.value = 20 ∧
      (Shop.after Shop.paidByCard).world.queue.map (·.attributes.metadata.bonusCoins) = ["25"] := by
  refine ⟨rfl, ?_⟩
  decide +kernel

end PaymentService
