import PaymentService.Resolution
import PaymentService.Status

/-!
# The source and the charge of a row

A row names the source it was paid with and the charge that was made of it. A charge writes both
at once. An event writes the charge it carries next to the source of the row as it was looked up,
possibly long ago. The pair is nevertheless always one that the provider has made for the row: the
row was looked up by the source of the event, and where no source is used twice, the charge of the
event is the one of the pair that was read.

The argument goes back from a save to the state in which its row was read, so the invariant is used
at an earlier state than the last one.
-/

namespace PaymentService

open Async CallbackService

variable {env : Env}

/-! ## What is assumed of the provider -/

/-- No source is used for two charges. -/
def Provider.SingleUse (provider : Provider) : Prop :=
  (provider.books.map (·.2.sourceId)).Nodup

/-- If the request is an event about a charge, it has identifier and source of one of the
provider. -/
def Provider.Vouches (provider : Provider) : Request → Prop
  | .omiseCallback body _ =>
    CallbackController.isChargeEvent body = true →
      ∃ id metadata, (id, metadata) ∈ provider.books ∧ (body.prop "data").prop "id" = .str id ∧
        sourceOf (body.prop "data") = some (.str metadata.sourceId)
  | _ => True

theorem Provider.SingleUse.eq {provider : Provider} (h : provider.SingleUse)
    {entry entry' : String × ChargeMetadata} (hentry : entry ∈ provider.books)
    (hentry' : entry' ∈ provider.books) (hsource : entry.2.sourceId = entry'.2.sourceId) :
    entry = entry' :=
  List.inj_on_of_nodup_map h hentry hentry' hsource

/-! ## Pairs -/

/-- Source and charge of the row are both missing, or are those of a charge made for the row. -/
def Paired (provider : Provider) (row : TransactionStatus) : Prop :=
  (row.source = none ∧ row.providerRefId = none) ∨
    ∃ id metadata, (id, metadata) ∈ provider.books ∧ row.source = some metadata.sourceId ∧
      row.providerRefId = some id ∧ metadata.txId = row.id

section Saves

variable {db db' : Db} {uuid : ℕ → String} {saved : SavedStatus} {provider : Provider}

theorem paired_save_pay {tokenPackage : TokenPackageResponse} {user : Option String} {product : ℚ}
    {type : String} {now : Date}
    (hsave : db.save (newTransactionStatus env tokenPackage user product type now) uuid
      = some (saved, db')) (h : ∀ row ∈ db.statuses, Paired provider row) :
    ∀ row ∈ db'.statuses, Paired provider row := by
  intro row' hrow'
  rcases Db.mem_statuses_save hsave hrow' with hold | ⟨hins, -⟩ | ⟨row, -, hid, -⟩
  · exact h row' hold
  · have hnew := StatusObject.inserted hins
    exact Or.inl ⟨(Option.some_inj.mp hnew.source).symm, (Option.some_inj.mp hnew.providerRefId).symm⟩
  · exact absurd hid (by simp [newTransactionStatus])

theorem paired_save_charge {read : TransactionStatus} {source : String} {chargeResult : Charge}
    {now : Date}
    (hsave : db.save (attemptStatus read source chargeResult now) uuid = some (saved, db'))
    (hword : Word source) (hwordId : Word chargeResult.id)
    (hbooks : (chargeResult.id, chargeResult.metadata) ∈ provider.books)
    (hsource : chargeResult.metadata.sourceId = source) (htx : chargeResult.metadata.txId = read.id)
    (h : ∀ row ∈ db.statuses, Paired provider row) : ∀ row ∈ db'.statuses, Paired provider row := by
  intro row' hrow'
  rcases Db.mem_statuses_save hsave hrow' with hold | ⟨hins, -⟩ | ⟨row, -, hid, hupd⟩
  · exact h row' hold
  · exact absurd hins (by rw [insert_attemptStatus]; simp)
  · have htaken := attemptTaken_of_update hupd
    obtain rfl := eq_of_update_attemptStatus hupd
    refine Or.inr ⟨chargeResult.id, chargeResult.metadata, hbooks, ?_,
      attemptRow_providerRefId htaken hwordId row, ?_⟩
    · rw [hsource]
      exact attemptRow_source htaken hword row
    · rw [htx, attemptRow_id]
      exact Option.some_inj.mp hid

/-- What an event leaves in the two columns, however old the row is that it was computed from. -/
theorem paired_of_recorded {info row' : TransactionStatus} {data : Js} {old oldRef : Option String}
    {id : String} {metadata : ChargeMetadata}
    (hsource' : (Column.ofOption info.source).writeText 50 old = some row'.source)
    (href : (env.column (data.prop "id")).writeText 50 oldRef = some row'.providerRefId)
    (hinfo : info.Fits) (hid : data.prop "id" = .str id) (hword : Word id)
    (hbooks : (id, metadata) ∈ provider.books) (hsource : info.source = some metadata.sourceId)
    (htx : metadata.txId = row'.id) : Paired provider row' := by
  rw [Column.writeText_ofOption old hinfo.source] at hsource'
  rw [hid, Env.column_str, Column.writeText_value] at href
  obtain ⟨kept, hkept, hrowRef⟩ := Option.map_eq_some_iff.mp href
  obtain rfl := Sql.eq_of_varchar hword.1 hkept
  have hrowSource := (Option.some_inj.mp hsource').symm.trans hsource
  exact Or.inr ⟨_, metadata, hbooks, hrowSource, hrowRef.symm, htx⟩

theorem paired_save_event {info : TransactionStatus} {logs : List TransactionLog}
    {data eventKey : Js} {now : Date} {id : String} {metadata : ChargeMetadata}
    (hsave : db.save (recordedStatus env info logs data eventKey now) uuid = some (saved, db'))
    (hinfo : info.Fits) (hid : data.prop "id" = .str id) (hword : Word id)
    (hbooks : (id, metadata) ∈ provider.books) (hsource : info.source = some metadata.sourceId)
    (htx : metadata.txId = info.id)
    (h : ∀ row ∈ db.statuses, Paired provider row) : ∀ row ∈ db'.statuses, Paired provider row := by
  intro row' hrow'
  rcases Db.mem_statuses_save hsave hrow' with hold | ⟨hins, hobj⟩ | ⟨row, -, hobj, hupd⟩
  · exact h row' hold
  · have hrowId : info.id = row'.id := by
      rcases hobj with hobj | hobj
      · exact Option.some_inj.mp hobj
      · exact absurd hobj (by simp)
    have hnew := StatusObject.inserted hins
    exact paired_of_recorded hnew.source hnew.providerRefId hinfo hid hword hbooks hsource
      (htx.trans hrowId)
  · have hold := TransactionStatus.updated hupd
    have hrowId : info.id = row'.id := by
      rw [hold.id]
      exact Option.some_inj.mp hobj
    exact paired_of_recorded hold.source hold.providerRefId hinfo hid hword hbooks hsource
      (htx.trans hrowId)

end Saves

/-! ## In a run -/

section Run

variable {provider : Provider} {w : World} {bs cs : List Step} {a : Step}

/-- A row that was found by a truthful event is the one that its charge was made for. -/
theorem txId_of_found (hsingle : provider.SingleUse) {i : ℕ} {body : Js} {headers : Headers}
    {info : TransactionStatus} {logs : List TransactionLog} {now : Date}
    (hpast : ∀ ds es, bs = ds ++ es →
      ∀ row ∈ ((system env).run (Server.start w) ds).world.db.statuses, Paired provider row)
    {id : String} {metadata : ChargeMetadata} (hmem : (id, metadata) ∈ provider.books)
    (hsource : sourceOf (body.prop "data") = some (.str metadata.sourceId))
    (hfound : EventFound env (System.Heard ((system env).trace (Server.start w) bs) i
      (.omiseCallback body headers)) body headers info logs now) :
    info.Fits ∧ info.source = some metadata.sourceId ∧ metadata.txId = info.id := by
  have hall : (system env).trace (Server.start w) bs = (system env).trace (Server.start w) bs ++ [] :=
    (List.append_nil _).symm
  obtain ⟨ds, es, sourceId, pick, hbs, hsource', hfind⟩ := hfound.past hall
  obtain rfl := Option.some_inj.mp (hsource.symm.trans hsource')
  obtain ⟨hinfo, hinfoSource, -⟩ := Db.findOneBySource_eq_some_iff.mp hfind
  refine ⟨(Db.legal _).statusFits info hinfo, hinfoSource, ?_⟩
  -- The pair that was read is one of the provider, and the source has only one charge.
  rcases hpast ds es hbs info hinfo with ⟨hnone, -⟩ | ⟨id', metadata', hmem', hsome, -, htx⟩
  · exact absurd (hnone.symm.trans hinfoSource) (by simp)
  · have hsame : (id', metadata') = (id, metadata) :=
      hsingle.eq hmem' hmem (Option.some_inj.mp (hsome.symm.trans hinfoSource))
    rw [← (Prod.mk.inj hsame).2]
    exact htx

/-- The next move of a run keeps the rows paired, if they were at all places before. -/
theorem paired_advance (hsingle : provider.SingleUse)
    (hwords : ∀ entry ∈ provider.books, Word entry.1)
    (htruth : ∀ q ∈ System.arrivals bs, provider.Vouches q)
    (hbooks : ((system env).run (Server.start w) (bs ++ cs)).world.provider.books <+:
      provider.books)
    (hpast : ∀ ds es, bs = ds ++ es →
      ∀ row ∈ ((system env).run (Server.start w) ds).world.db.statuses, Paired provider row) :
    ∀ row ∈ ((system env).advance ((system env).run (Server.start w) bs) a).2.world.db.statuses,
      Paired provider row := by
  have hnow := hpast bs [] (List.append_nil bs).symm
  rcases db_advance_cases env ((system env).run (Server.start w) bs) a with ⟨hsame, -⟩ |
    ⟨i, q, obj, k, o, saved, db, hi, hsave, hcall, hworld⟩
  · rw [hsame]
    exact hnow
  · rw [hworld]
    rcases (issued_of_advance hcall).statusSave_cases with
      ⟨user, product, type, tokenPackage, now, -, rfl, -⟩ |
      ⟨txId, source, type, row, before, productId, chargeResult, now, -, rfl, -, hcharge⟩ |
      ⟨body, headers, info, logs, now, hq, rfl, hfound⟩
    · exact paired_save_pay hsave hnow
    · obtain ⟨hmakes, hmem⟩ := books_of_heard (System.trace_append _ _ bs cs) hcharge
      exact paired_save_charge hsave hmakes.word_source hmakes.word_id (hbooks.subset hmem)
        (by rw [hmakes.metadata]; rfl) (by rw [hmakes.metadata]; rfl) hnow
    · change q = .omiseCallback body headers at hq
      subst hq
      have harrived := System.request_mem_arrivals (List.mem_of_getElem? hi)
      obtain ⟨id, metadata, hmem, hid, hsource⟩ := htruth _ harrived hfound.event
      obtain ⟨hinfo, hinfoSource, htx⟩ := txId_of_found hsingle hpast hmem hsource hfound
      exact paired_save_event hsave hinfo hid (hwords _ hmem) hmem hinfoSource htx hnow

end Run

/-- In the trace, the provider has created the charge `id` with the source for the transaction. -/
def CreatesCharge (es : List Event) (txId source id : String) : Prop :=
  ∃ (i : ℕ) (q : Request) (request : ChargeRequest) (charge : Charge) (now : Date),
    (⟨i, q, .chargesCreate request, .ok (charge, now)⟩ : Event) ∈ es ∧ charge.id = id ∧
      request.metadata.txId = txId ∧ (request.source = some source ∨ request.card = some source)

theorem createsCharge_of_books (env : Env) (as : List Step) :
    ∀ id metadata, (id, metadata) ∈
        ((system env).run (Server.start World.empty) as).world.provider.books →
      CreatesCharge ((system env).trace (Server.start World.empty) as) metadata.txId
        metadata.sourceId id := by
  refine (System.run_trace_inv (S := system env)
    (I := fun es p ↦ (RowProperty.trivial env).contract.Holds p ∧
      ∀ id metadata, (id, metadata) ∈ p.world.provider.books →
        CreatesCharge es metadata.txId metadata.sourceId id) (fun es p a hp ↦ ?_)
    ⟨RowProperty.holds_start env World.empty,
      fun id metadata hmem ↦ absurd hmem List.not_mem_nil⟩ as).2
  obtain ⟨hholds, hbooks⟩ := hp
  refine ⟨System.Contract.holds_advance hholds a, fun id metadata hmem ↦ ?_⟩
  have hold : (id, metadata) ∈ p.world.provider.books →
      CreatesCharge (es ++ ((system env).advance p a).1.toList) metadata.txId metadata.sourceId id := by
    intro hmem
    obtain ⟨i, q, request, charge, now, he, hrest⟩ := hbooks id metadata hmem
    exact ⟨i, q, request, charge, now, List.mem_append_left _ he, hrest⟩
  rcases books_advance_cases env p a with hsame | ⟨i, q, request, k, o, hi, hcall, hworld⟩
  · rw [hsame] at hmem
    exact hold hmem
  · rw [hworld, Provider.books_create, List.mem_append] at hmem
    rcases hmem with hmem | hmem
    · exact hold hmem
    · obtain ⟨rfl, rfl⟩ := Prod.mk.inj (List.mem_singleton.mp hmem)
      have hissues : Issues env (fun _ ↦ True) q (.chargesCreate request) := hholds.guarantee hi
      refine ⟨i, q, request, o.charge request, o.now, ?_, rfl, rfl, ?_⟩
      · rw [hcall]
        exact List.mem_append_right _ (List.mem_singleton_self _)
      · cases hissues with
        | create type _ _ hrow hproduct =>
          by_cases htype : type = some PaymentTypeEnum.card.value
          · exact Or.inr (by simp [chargeRequest, htype, Choice.charge])
          · exact Or.inl (by simp [chargeRequest, htype, Choice.charge])

/-- In every run of the fresh service, as long as no source is used for two charges and every event
is about a charge of the provider, in whatever order and however often the events come: each row has
neither source nor charge, or has a source and the charge that was created with that source for that
transaction. -/
theorem pair_of_one_charge (env : Env) (as : List Step)
    (hsingle : ((system env).run (Server.start World.empty) as).world.provider.SingleUse)
    (htruth : ∀ q ∈ System.arrivals as,
      ((system env).run (Server.start World.empty) as).world.provider.Vouches q) :
    ∀ row ∈ ((system env).run (Server.start World.empty) as).world.db.statuses,
      (row.source = none ∧ row.providerRefId = none) ∨
        ∃ source id, row.source = some source ∧ row.providerRefId = some id ∧
          CreatesCharge ((system env).trace (Server.start World.empty) as) row.id source id := by
  have hprovider := remembers_run env (p := Server.start World.empty) Provider.remembers_empty as
  have hpaired : ∀ row ∈ ((system env).run (Server.start World.empty) as).world.db.statuses,
      Paired ((system env).run (Server.start World.empty) as).world.provider row := by
    refine System.run_inv_of_past (I := fun p : Server ↦ ∀ row ∈ p.world.db.statuses,
      Paired ((system env).run (Server.start World.empty) as).world.provider row)
      (fun row hrow ↦ absurd hrow List.not_mem_nil) fun bs a cs has hpast ↦ ?_
    have hbooks : ((system env).run (Server.start World.empty) (bs ++ a :: cs)).world.provider.books
        <+: ((system env).run (Server.start World.empty) as).world.provider.books := by
      rw [← has]
    refine paired_advance hsingle (fun entry hentry ↦ ?_) (fun q hq ↦ htruth q ?_) hbooks hpast
    · obtain ⟨charge, hcharge, rfl⟩ := List.mem_map.mp hentry
      exact hprovider.wordId charge (hprovider.reported hcharge)
    · rw [has, System.arrivals_append]
      exact List.mem_append_left _ hq
  intro row hrow
  rcases hpaired row hrow with hnone | ⟨id, metadata, hmem, hsource, href, htx⟩
  · exact Or.inl hnone
  · refine Or.inr ⟨metadata.sourceId, id, hsource, href, ?_⟩
    rw [← htx]
    exact createsCharge_of_books env as id metadata hmem

/-- The order in the shop, paid once and its event recorded. -/
theorem pair_of_one_charge_in_shop :
    ∃ row ∈ (Shop.after Shop.recorded).world.db.statuses,
      row.providerRefId = some "first2" ∧
        CreatesCharge ((system Shop.platform).trace (Server.start World.empty) Shop.recorded)
          Shop.orderId "src_1" "first2" := by
  obtain ⟨hbook, hrow, hsingle⟩ : (∃ entry ∈ (Shop.after Shop.recorded).world.provider.books,
        entry.1 = "first2" ∧ entry.2.sourceId = "src_1") ∧
      (∃ row ∈ (Shop.after Shop.recorded).world.db.statuses, row.id = Shop.orderId ∧
        row.source = some "src_1" ∧ row.providerRefId = some "first2") ∧
      (Shop.after Shop.recorded).world.provider.SingleUse := by
    unfold Provider.SingleUse
    decide +kernel
  have harrivals : System.arrivals Shop.recorded =
      [.pay (some "buyer") 7 PaymentTypeEnum.qr.value, .charge Shop.orderId "src_1",
        eventRequest Shop.platform .complete Shop.paidCharge] := rfl
  have hpairs := pair_of_one_charge Shop.platform Shop.recorded hsingle <| by
    intro q hq
    rw [harrivals] at hq
    simp only [List.mem_cons, List.not_mem_nil, or_false] at hq
    rcases hq with rfl | rfl | rfl
    · trivial
    · trivial
    · intro _
      obtain ⟨⟨id, metadata⟩, hmem, rfl, hsource⟩ := hbook
      exact ⟨_, metadata, hmem, rfl, by rw [hsource]; rfl⟩
  obtain ⟨row, hmem, hid, hsource, href⟩ := hrow
  rcases hpairs row hmem with ⟨hnone, -⟩ | ⟨source, id, hsource', href', hcreated⟩
  · exact absurd (hnone.symm.trans hsource) (by simp)
  · rw [hid, ← Option.some_inj.mp (hsource.symm.trans hsource'),
      ← Option.some_inj.mp (href.symm.trans href')] at hcreated
    exact ⟨row, hmem, href, hcreated⟩

end PaymentService
