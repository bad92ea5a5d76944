import PaymentService.Controllers.Answers

/-!
# Orders

What an answer to an order is worth. A client that is answered with a success has been given the
identifier of a row that is as the order was: of the user in the headers, for the product and the
payment type in the body, as far as the columns keep them. The row stays, whatever arrives
afterwards, and what was bought with it stays the same. So whoever asks for the identifier, at any
later time, and is answered with a success at all, is shown that row.
-/

namespace PaymentService

open Async

/-! ## What a purchase returns -/

section Placed

variable {env : Env}

/-- What a purchase returns is the identifier that its save has returned. -/
def Placed (env : Env) : Request → (c : Call) → Except JsError c.Reply → Response → Prop
  | .pay userRefId productId paymentType, .statusSave obj, .ok (saved, _), response =>
    response = .transaction saved.id ∧
      ∃ tokenPackage now,
        obj = newTransactionStatus env tokenPackage userRefId productId paymentType now
  | .pay _ _ _, _, _, _ => False
  | _, _, _, _ => True

private theorem placed_pay (userRefId : Option String) (productId : ℚ) (paymentType : String) :
    Concludes (fun c r id ↦ Placed env (.pay userRefId productId paymentType) c r (.transaction id))
      (createPaymentTransaction env userRefId productId paymentType) := by
  rw [createPaymentTransaction_eq]
  intro r
  match r with
  | .error e => exact ⟨(fun id h ↦ by cases h), trivial⟩
  | .ok (tokenPackage, now) =>
    refine ⟨(fun id h ↦ by cases h), fun r ↦ ?_⟩
    match r with
    | .error e => exact ⟨(fun id h ↦ by cases h), trivial⟩
    | .ok (saved, later) =>
      refine ⟨fun id h ↦ ?_, trivial⟩
      obtain rfl : saved.id = id := done.inj h
      exact ⟨rfl, tokenPackage, now, rfl⟩

theorem concludes_placed (env : Env) (q : Request) : Concludes (Placed env q) (program env q) := by
  match q with
  | .pay userRefId productId paymentType =>
    exact Concludes.bind_done (placed_pay userRefId productId paymentType)
  | .charge txId source => exact concludes_of_forall (fun _ _ _ ↦ trivial) _
  | .omiseCallback body headers => exact concludes_of_forall (fun _ _ _ ↦ trivial) _

/-- What a purchase returns names a row that is as it was ordered. -/
def Request.Stored (env : Env) (w : World) : Request → Response → Prop
  | .pay userRefId productId paymentType, response =>
    ∃ id row, response = .transaction id ∧ w.db.row? id = some row ∧
      userRefId.bind (Sql.varchar 50) = some row.userRefId ∧
      row.productId = env.printNumber productId ∧
      Sql.varchar 50 paymentType = some row.paymentType
  | _, _ => True

theorem Request.stored_perform {w : World} {q : Request} {c : Call} (o : Choice) {response : Response}
    (h : Placed env q c (perform env w c o).1 response) :
    q.Stored env (perform env w c o).2 response := by
  match q with
  | .charge txId source => trivial
  | .omiseCallback body headers => trivial
  | .pay userRefId productId paymentType =>
    by_cases hc : ∀ obj, c ≠ .statusSave obj
    · exact absurd h (by cases c <;> first | exact id | exact absurd rfl (hc _))
    · push Not at hc
      obtain ⟨obj, rfl⟩ := hc
      rw [perform_statusSave] at h ⊢
      rcases hsave : saveOutcome w.db obj o with _ | ⟨saved, db⟩
      · rw [hsave] at h
        exact absurd h id
      · rw [hsave] at h
        obtain ⟨rfl, tokenPackage, now, rfl⟩ := h
        obtain ⟨row, hins, hrow⟩ := Db.row?_save_new (saveOutcome_eq_some.mp hsave).2 rfl
        match userRefId with
        | none => exact absurd hins (by simp [StatusObject.insert, newTransactionStatus,
            Column.insertRequired])
        | some userRefId =>
          have hstored := Purchase.stored_of_insert
            (p := ⟨userRefId, productId, paymentType, tokenPackage, now⟩) hins
          exact ⟨saved.id, row, rfl, hrow, hstored.userRefId, hstored.productId,
            hstored.paymentType⟩

theorem Request.Stored.mono {w w' : World} {q : Request} {response : Response}
    (hw : (boughtOfRow env).Evolves w w') (h : q.Stored env w response) : q.Stored env w' response := by
  match q with
  | .charge txId source => trivial
  | .omiseCallback body headers => trivial
  | .pay userRefId productId paymentType =>
    obtain ⟨id, row, hresponse, hrow, huser, hproduct, htype⟩ := h
    obtain ⟨row', hrow', hbought⟩ := hw id row hrow
    have hbought' : row'.bought = row.bought := hbought
    refine ⟨id, row', hresponse, hrow', ?_, ?_, ?_⟩
    · rw [huser]
      exact congrArg (fun b ↦ some b.userRefId) hbought'.symm
    · exact (congrArg BoughtFields.productId hbought').trans hproduct
    · rw [htype]
      exact congrArg (fun b ↦ some b.paymentType) hbought'.symm

/-- In every run, what a purchase has returned names a row that is as it was ordered. -/
theorem stored_of_done (env : Env) (w : World) (as : List Step)
    {t : Task Call Call.Reply JsError Response Request}
    (ht : t ∈ ((system env).run (Server.start w) as).tasks) {response : Response}
    (hdone : t.rest = done response) :
    t.request.Stored env ((system env).run (Server.start w) as).world response := by
  refine System.of_returned (boughtOfRow env).contract (P := Request.Stored env)
    (concludes_placed env) (fun w q response h ↦ ?_) (fun o response _ _ h ↦ Request.stored_perform o h)
    (fun hw h ↦ h.mono hw) True.intro as ht hdone
  match q with
  | .charge txId source => trivial
  | .omiseCallback body headers => trivial
  | .pay userRefId productId paymentType =>
    change (createPaymentTransaction env userRefId productId paymentType >>= _) = _ at h
    rw [createPaymentTransaction_eq] at h
    cases h

end Placed

/-! ## What an order is answered -/

section Ordered

variable {app : Application} {x : Exchange}

/-- The row is as the request has ordered: for the user in the headers, with the product and the
payment type of the body, but for blanks beyond the length of a column. -/
structure Exchange.Ordered (app : Application) (x : Exchange) (row : TransactionStatus) : Prop where
  userRefId : (x.request.header USER_ID_HEADER).bind (Sql.varchar 50) = some row.userRefId
  productId : ∃ productId, x.request.body.prop "productId" = .num productId ∧
    app.env.printNumber productId = row.productId
  paymentType : ∃ paymentType, x.request.body.prop "paymentType" = .str paymentType ∧
    Sql.varchar 50 paymentType = some row.paymentType

theorem Sent.of_success {handled : Except HttpFailure Js} {body : Loggable}
    (h : Sent app x handled body) (hcode : body.code = .num CODE_SUCCESS) :
    ∃ value, handled = .ok value ∧ body = envelope (x.status app CODE_SUCCESS) (orNull value) := by
  have htechnical : CODE_TECHNICAL_ERROR ≠ CODE_SUCCESS := by decide
  obtain ⟨-, value, rfl⟩ := h.code_iff.1.mp hcode
  match h with
  | .success hloggable => exact ⟨value, rfl, rfl⟩
  | .unlogged hloggable =>
    rw [code_envelope (by simp)] at hcode
    exact absurd hcode (num_ne_num htechnical)

theorem Exchange.Answered.of_success {body : Loggable} (h : x.Answered app (.ok (), [body]))
    (hcode : body.code = .num CODE_SUCCESS) :
    x.admitted app = .ok (x.status app CODE_SUCCESS) ∧
      ∃ value, Handled app (x.route.handle app.pipe x.intercepted) (.ok value) := by
  have hcodes : CODE_BUSINESS_ERROR ≠ CODE_SUCCESS := by decide
  obtain ⟨body', heq, hbody⟩ := h
  obtain rfl : body = body' := by simpa using heq
  rcases hbody with ⟨-, rfl⟩ | ⟨hlanguage, handled, hhandled, hsent⟩
  · rw [code_envelope (by simp)] at hcode
    exact absurd hcode (num_ne_num hcodes)
  · obtain ⟨value, rfl, -⟩ := hsent.of_success hcode
    exact ⟨((x.admitted_cases app).resolve_left fun h ↦ hlanguage h.1).2, value, hhandled⟩

theorem Exchange.exists_pay_of_handled (hroute : x.route = .createTransaction) {value : Js}
    (h : Handled app (x.route.handle app.pipe x.intercepted) (.ok value)) :
    ∃ productId paymentType, x.request.body.prop "productId" = .num productId ∧
      x.request.body.prop "paymentType" = .str paymentType ∧
      x.route.handle app.pipe x.intercepted =
        .request (.pay (x.request.header USER_ID_HEADER) productId paymentType) := by
  rw [hroute] at h ⊢
  rcases app.pipe.handle_cases
    (PaymentController.createTransaction (x.intercepted.header USER_ID_HEADER))
    (@PaymentPayRequest.isSome_of_conforms x.intercepted.body) with
    ⟨-, details, hdetails, hhandle⟩ | ⟨-, errors, hthrows⟩
  · rw [x.header_intercepted (by decide) (by decide)] at hhandle
    rw [x.body_intercepted, PaymentPayRequest.ofBody] at hdetails
    split at hdetails
    · next productId paymentType hproduct htype =>
      obtain rfl := Option.some_inj.mp hdetails
      refine ⟨productId, paymentType, hproduct, htype, ?_⟩
      rw [Route.handle, x.header_intercepted (by decide) (by decide)]
      exact hhandle
    · cases hdetails
  · have hthrown : Route.createTransaction.handle app.pipe x.intercepted =
        .throws (.validation errors) := hthrows
    rw [hthrown] at h
    cases h.eq_of_throws

theorem Exchange.answer_of_success {r : Except JsError Response} {body : Loggable}
    (hadmitted : x.admitted app = .ok (x.status app CODE_SUCCESS))
    (herror : ∀ e, r = .error e → NoSuccess e) (h : x.answer app r = (.ok (), [body]))
    (hcode : body.code = .num CODE_SUCCESS) :
    ∃ response, r = .ok response ∧
      body = envelope (x.status app CODE_SUCCESS) (orNull (response.toJs app.format)) := by
  obtain ⟨body', hbody, hsent⟩ := x.respond_handledOf app (plain_response app.format) herror
  rw [answer, hadmitted] at h
  obtain rfl : body = body' := by simpa using h.symm.trans hbody
  obtain ⟨value, hvalue, heq⟩ := hsent.of_success hcode
  rcases r with e | response
  · cases hvalue
  · obtain rfl : response.toJs app.format = value := Except.ok.inj hvalue
    exact ⟨response, rfl, heq⟩

/-- An order that has been answered with a success has been given the identifier of a row that is as
it was ordered. -/
theorem order_stored (w : World) (as : List HttpStep) (i : ℕ) (body : Loggable)
    (hroute : x.route = .createTransaction)
    (hi : ((http app).run (HttpServer.start w) as).tasks[i]? = some ⟨x, done (.ok (), [body])⟩)
    (hcode : body.code = .num CODE_SUCCESS) :
    ∃ id row, body = envelope (x.status app CODE_SUCCESS) (orNull (.str id)) ∧
      ((http app).run (HttpServer.start w) as).world.db.row? id = some row ∧ x.Ordered app row := by
  obtain ⟨hadmitted, value, hhandled⟩ := (answered_of_done hi).of_success hcode
  obtain ⟨productId, paymentType, hproduct, htype, hhandle⟩ := x.exists_pay_of_handled hroute hhandled
  have hpassed : x.toRequest app =
      some (.pay (x.request.header USER_ID_HEADER) productId paymentType) :=
    Exchange.toRequest_eq_some_iff.mpr ⟨⟨_, hadmitted⟩, hhandle⟩
  obtain ⟨bs, hsimulated, -⟩ := (front app).simulates w as
  obtain ⟨t, ht, hcases⟩ := Front.answer_of_matches hsimulated hi hpassed
  have hends := System.ends_run (S := system app.env) (rejects_perform app.env)
    (ends_program app.env) w bs _ (List.mem_of_getElem? ht)
  rcases hcases with ⟨response, rfl, heq⟩ | ⟨e, rfl, heq⟩
  · obtain ⟨response', hresponse, hbody⟩ := Exchange.answer_of_success hadmitted (fun e h ↦ by cases h)
      heq.symm hcode
    obtain rfl : response = response' := Except.ok.inj hresponse
    obtain ⟨id, row, rfl, hrow, huser, hproduct', htype'⟩ :=
      stored_of_done app.env w bs (List.mem_of_getElem? ht) rfl
    rw [hsimulated.1] at hrow
    exact ⟨id, row, hbody, hrow, huser, ⟨productId, hproduct, hproduct'.symm⟩,
      ⟨paymentType, htype, htype'⟩⟩
  · have hthrown : NoSuccess e := hends
    obtain ⟨response, hresponse, -⟩ := Exchange.answer_of_success hadmitted
      (fun e' h ↦ Except.error.inj h ▸ hthrown) heq.symm hcode
    cases hresponse

end Ordered

/-! ## What is shown of it -/

theorem Exchange.shown_of_success {app : Application} {y : Exchange} {id : String} {w : World}
    {o : HttpChoice} {body : Loggable} (hfound : (w.db.row? id).isSome = true)
    (h : y.respond app (y.status app CODE_SUCCESS)
      (handledOf (foundToJs app.format) (httpPerform app w (.statusFindOne id) o).1) =
        (.ok (), [body]))
    (hcode : body.code = .num CODE_SUCCESS) :
    ∃ row, w.db.row? id = some row ∧
      body = envelope (y.status app CODE_SUCCESS) (row.toJs app.format (w.db.attached id)) := by
  obtain ⟨row, hrow⟩ := Option.isSome_iff_exists.mp hfound
  obtain ⟨body', hbody, hsent⟩ := y.respond_handledOf app (plain_found app.format)
    (r := (httpPerform app w (.statusFindOne id) o).1) fun e h ↦
      rejects_httpPerform app w (.statusFindOne id) o e h ▸ fun _ h ↦ by cases h
  obtain rfl : body = body' := by simpa using h.symm.trans hbody
  obtain ⟨value, hvalue, rfl⟩ := hsent.of_success hcode
  refine ⟨row, hrow, ?_⟩
  simp only [httpPerform] at hvalue
  split at hvalue
  · cases hvalue
  · obtain rfl := Except.ok.inj hvalue
    have hread : Sql.Uuid.read id = some id := by
      obtain ⟨-, rfl⟩ := Db.row?_eq_some_iff.mp hrow
      exact (Db.fits_of_row? hrow).id
    rw [findTransactionById, hread, Option.bind_some, Db.transaction?, hrow]
    rfl

/-- In every run of the HTTP server: an order that has been answered with a success has been given the
identifier of a row that is as it was ordered. From then on the row is there, and what was bought with
it is the same, whatever arrives and happens in whatever order; and a query for the identifier that
arrives afterwards and is answered with a success is answered with that row. -/
theorem order_found (app : Application) (w : World) (as : List HttpStep) (i : ℕ) (x : Exchange)
    (body : Loggable) (hroute : x.route = .createTransaction)
    (hi : ((http app).run (HttpServer.start w) as).tasks[i]? = some ⟨x, done (.ok (), [body])⟩)
    (hcode : body.code = .num CODE_SUCCESS) :
    ∃ id ordered, body = envelope (x.status app CODE_SUCCESS) (orNull (.str id)) ∧
      x.Ordered app ordered ∧
      (∀ bs, ∃ row,
        ((http app).run (HttpServer.start w) (as ++ bs)).world.db.row? id = some row ∧
          row.bought = ordered.bought) ∧
      ∀ y bs shown, y.route = .getTransactionById id →
        ((http app).run (HttpServer.start w) (as ++ .spawn y :: bs)).tasks[
            ((http app).run (HttpServer.start w) as).tasks.length]? =
          some ⟨y, done (.ok (), [shown])⟩ →
        shown.code = .num CODE_SUCCESS →
          ∃ (row : TransactionStatus) (logs : List TransactionLog),
            shown = envelope (y.status app CODE_SUCCESS) (row.toJs app.format logs) ∧
            row.id = id ∧ row.bought = ordered.bought := by
  obtain ⟨id, ordered, hbody, hrow, hordered⟩ := order_stored w as i body hroute hi hcode
  have hstays : ∀ bs, ∃ row,
      ((http app).run (HttpServer.start w) (as ++ bs)).world.db.row? id = some row ∧
        row.bought = ordered.bought := fun bs ↦
    (front app).evolves (boughtOfRow app.env).contract True.intro as bs id ordered hrow
  refine ⟨id, ordered, hbody, hordered, hstays, fun y bs shown hy hshown hsuccess ↦ ?_⟩
  obtain ⟨hadmitted, -⟩ := (answered_of_done hshown).of_success hsuccess
  have hprogram : httpProgram app y = await (.statusFindOne id) fun r ↦
      done (y.respond app (y.status app CODE_SUCCESS) (handledOf (foundToJs app.format) r)) := by
    rw [httpProgram, hadmitted, hy]
    rfl
  rw [System.run_append] at hshown
  rcases System.returned_of_single (S := http app) hprogram
    ((http app).run (HttpServer.start w) as) bs with hwaits | ⟨ds, o, cs, -, hreturned⟩
  · rw [hshown] at hwaits
    have hdone := congrArg Task.rest (Option.some_inj.mp hwaits)
    cases hdone.trans hprogram
  · -- The query has read the state at some moment after it arrived.
    have hrespond := done.inj (congrArg Task.rest (Option.some_inj.mp (hreturned.symm.trans hshown)))
    rw [← System.run_append] at hrespond
    obtain ⟨row, hfound, hbought⟩ := hstays (.spawn y :: ds)
    obtain ⟨row', hrow', hanswer⟩ := Exchange.shown_of_success (by rw [hfound]; rfl) hrespond hsuccess
    obtain rfl := Option.some_inj.mp (hfound.symm.trans hrow')
    exact ⟨row, _, hanswer, (Db.row?_eq_some_iff.mp hfound).2, hbought⟩

/-- The request in the place has been answered with the code of a success. -/
def HttpServer.succeeded (p : HttpServer) (i : ℕ) : Bool :=
  match p.tasks[i]? with
  | some ⟨_, done (.ok (), [body])⟩ =>
    match body.code with
    | .num code => code = CODE_SUCCESS
    | _ => false
  | _ => false

theorem HttpServer.exists_of_succeeded {p : HttpServer} {i : ℕ} (h : p.succeeded i = true) :
    ∃ x body, p.tasks[i]? = some ⟨x, done (.ok (), [body])⟩ ∧ body.code = .num CODE_SUCCESS := by
  unfold succeeded at h
  split at h
  · next x body hi =>
    split at h
    · next code hcode => exact ⟨x, body, hi, hcode.trans (congrArg Js.num (of_decide_eq_true h))⟩
    · cases h
  · cases h

/-- The row of the buyer's order stays as it was ordered. -/
theorem buyer_order_found :
    ∃ id ordered, Shop.order.Ordered Shop.application ordered ∧
      ∀ bs, ∃ row, ((http Shop.application).run (HttpServer.start World.empty)
          ([.spawn Shop.order, .resume 0 (Shop.httpChoice "order0"),
            .resume 0 (Shop.httpChoice "order1")] ++ bs)).world.db.row? id = some row ∧
        row.bought = ordered.bought := by
  obtain ⟨x, body, hi, hcode⟩ := HttpServer.exists_of_succeeded
    (p := (http Shop.application).run (HttpServer.start World.empty)
      [.spawn Shop.order, .resume 0 (Shop.httpChoice "order0"),
        .resume 0 (Shop.httpChoice "order1")]) (i := 0) (by decide +kernel)
  have hrequest := System.requests_run (S := http Shop.application) World.empty
    [.spawn Shop.order, .resume 0 (Shop.httpChoice "order0"), .resume 0 (Shop.httpChoice "order1")]
  obtain rfl : Shop.order = x := by
    have hx := congrArg (·[0]?) hrequest
    rw [List.getElem?_map, hi] at hx
    exact (Option.some_inj.mp hx).symm
  obtain ⟨id, ordered, -, hordered, hstays, -⟩ := order_found Shop.application World.empty
    [.spawn Shop.order, .resume 0 (Shop.httpChoice "order0"), .resume 0 (Shop.httpChoice "order1")]
    0 Shop.order body rfl hi hcode
  exact ⟨id, ordered, hordered, hstays⟩

end PaymentService
