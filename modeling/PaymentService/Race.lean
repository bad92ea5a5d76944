import PaymentService.Delivery
import PaymentService.Resolution
import PaymentService.Rows

/-!
# A charge and its own event

The provider has a charge from the moment it creates it, and may report it from then on; the row
knows the source only once the save of `charge` is through. What an event comes to depends on which
of the two is first, the save or the lookup: after the save the event is recorded, with both entries
in the log and the credit sent; before it the event finds nothing and is acknowledged all the same.
-/

namespace PaymentService

open Async CallbackService

/-! ## The metadata of a row -/

/-- The numbers the credit message is made of are there. -/
def Priced (metadata : Js) : Prop :=
  ∃ fields amount bonus price, metadata = .obj fields ∧
    fields.lookup "tokenAmount" = some (.num amount) ∧
    fields.lookup "tokenBonus" = some (.num bonus) ∧ fields.lookup "price" = some (.num price)

theorem priced_packageMetadata (tokenPackage : TokenPackageResponse) (tokenBonus : ℚ) :
    Priced (packageMetadata tokenPackage tokenBonus) :=
  ⟨_, tokenPackage.no_of_coins, tokenBonus, tokenPackage.price, rfl, rfl, rfl, rfl⟩

theorem Priced.charged {metadata : Js} (h : Priced metadata) (chargeResult : Charge) :
    Priced (chargedMetadata metadata chargeResult) := by
  obtain ⟨fields, amount, bonus, price, rfl, hamount, hbonus, hprice⟩ := h
  have hkeeps : ∀ key : String, key ≠ "qr_code" → key ≠ "card" →
      (Js.assign (Js.assign fields "qr_code"
        (chargeResult.source.prop "scannable_code").orUndefined)
          "card" chargeResult.card.orUndefined).lookup key = fields.lookup key := by
    intro key hqr hcard
    rw [Js.lookup_assign_of_ne _ _ hcard, Js.lookup_assign_of_ne _ _ hqr]
  refine ⟨_, amount, bonus, price, rfl, ?_, ?_, ?_⟩
  · exact (hkeeps "tokenAmount" (by decide) (by decide)).trans hamount
  · exact (hkeeps "tokenBonus" (by decide) (by decide)).trans hbonus
  · exact (hkeeps "price" (by decide) (by decide)).trans hprice

theorem Priced.readable {metadata : Js} (h : Priced metadata) (env : Env) :
    Readable env metadata := by
  obtain ⟨fields, amount, bonus, price, rfl, hamount, hbonus, hprice⟩ := h
  refine ⟨rfl, ?_, ?_, ?_, Or.inr ?_⟩
  · simp [hprice]
  · simp [hamount]
  · simp [hbonus]
  · simp [hamount, Js.nullish]

/-- Every row is priced: a purchase stores the prices, and nothing removes them. -/
def pricedRows (env : Env) : RowProperty env where
  Row row := Priced row.metadata
  pay := by
    intro tokenPackage user product type now id row hins
    have hmetadata := (StatusObject.inserted hins).metadata
    rw [← (jsonb_eq_some_iff.mp hmetadata).2]
    exact priced_packageMetadata tokenPackage _
  charge := by
    intro read row source chargeResult now row' hread _ _ hupd
    have hmetadata := (TransactionStatus.updated hupd).metadata
    rw [← (jsonb_eq_some_iff.mp hmetadata).2]
    exact hread.charged chargeResult
  record := by
    intro info row logs data eventKey now row' hinfo _ _ hupd
    have hmetadata := (TransactionStatus.updated hupd).metadata
    rw [← (jsonb_eq_some_iff.mp hmetadata).2]
    exact hinfo
  recordNew := by
    intro info logs data eventKey now id row' hinfo hins
    have hmetadata := (StatusObject.inserted hins).metadata
    rw [← (jsonb_eq_some_iff.mp hmetadata).2]
    exact hinfo

theorem priced_run (env : Env) (as : List Step) :
    ∀ row ∈ ((system env).run (Server.start World.empty) as).world.db.statuses,
      Priced row.metadata := by
  have hstart : (pricedRows env).contract.Holds (Server.start World.empty) :=
    System.Contract.holds_start fun _ hrow ↦ absurd hrow List.not_mem_nil
  have hholds := System.Contract.holds_run hstart as
  exact hholds.1

/-! ## The charge, call by call -/

/-- Nothing has been written or sent since `w`. -/
structure Untouched (w v : World) : Prop where
  db : v.db = w.db
  queue : v.queue = w.queue

/-- The charges that the provider did not have in `w`, in all their states, have the property. -/
def NewCharges (w : World) (P : Charge → Prop) (v : World) : Prop :=
  ∀ charge, charge ∈ v.provider.charges ∨ charge ∈ v.provider.snapshots →
    w.provider.charge? charge.id = none → P charge

section Charge

variable {env : Env} {w v : World} {txId source : String}

theorem Untouched.perform (env : Env) (h : Untouched w v) {c : Call} (hsave : ∀ obj, c ≠ .statusSave obj)
    (hsend : ∀ msg, c ≠ .sqsSendMessage msg) (o : Choice) :
    Untouched w (perform env v c o).2 :=
  ⟨(db_perform env hsave o).trans h.db, (queue_perform env hsend o).trans h.queue⟩

theorem Untouched.background (h : Untouched w v) (b : Move) : Untouched w (b.apply v) :=
  ⟨(Move.db_apply v b).trans h.db, (Move.queue_apply v b).trans h.queue⟩

/-- Where there was no new charge, the one that is created is the only one. -/
theorem NewCharges.create {P : Charge → Prop} (h : NewCharges w (fun _ ↦ False) v) {charge : Charge}
    (hP : P charge) : NewCharges w P { v with provider := v.provider.create charge } := by
  intro c hc hnew
  have hold : ¬(c ∈ v.provider.charges ∨ c ∈ v.provider.snapshots) := fun hin ↦ h c hin hnew
  rw [not_or] at hold
  obtain rfl : c = charge := by
    rcases hc with hc | hc
    · exact List.mem_singleton.mp ((List.mem_append.mp hc).resolve_left hold.1)
    · exact List.mem_singleton.mp ((List.mem_append.mp hc).resolve_left hold.2)
  exact hP

theorem NewCharges.background {P : Charge → Prop} (h : NewCharges w P v)
    (hP : ∀ charge status, P charge → P { charge with status }) (b : Move) :
    NewCharges w P (b.apply v) := by
  rcases b.apply_cases v with heq | ⟨chargeId, status, -, heq⟩
  · rw [heq]
    exact h
  · rw [heq]
    intro charge hcharge hnew
    rcases hcharge with hcharge | hcharge
    · obtain ⟨old, hold, rfl⟩ := List.mem_map.mp hcharge
      by_cases hid : old.id = chargeId
      · rw [if_pos hid] at hnew ⊢
        exact hP old status (h old (Or.inl hold) hnew)
      · rw [if_neg hid] at hnew ⊢
        exact h old (Or.inl hold) hnew
    · rcases List.mem_append.mp hcharge with hcharge | hcharge
      · exact h charge (Or.inr hcharge) hnew
      · obtain ⟨old, hold, rfl⟩ := List.mem_map.mp hcharge
        exact hP old status (h old (Or.inl (List.mem_filter.mp hold).1) hnew)

theorem newCharges_start (h : w.provider.Remembers) : NewCharges w (fun _ ↦ False) w := by
  intro charge hcharge hnew
  have hknown : (w.provider.charge? charge.id).isSome := by
    rcases hcharge with hcharge | hcharge
    · exact Provider.charge?_isSome_iff.mpr ⟨charge, hcharge, rfl⟩
    · exact h.known charge hcharge
  rw [hnew] at hknown
  cases hknown

/-- A charge request answers with the result of `charge`. -/
abbrev respond (p : Program PaymentChargeResponse) : Program Response :=
  p >>= fun response ↦ pure (.charged response)

/-- The charge exists, and the save is to come. -/
def chargePending (row : TransactionStatus) (source : String) (chargeResult : Charge)
    (now : Date) : Program Response :=
  respond (await (Call.statusSave (attemptStatus row source chargeResult now))
    (afterChargeSave chargeResult source now))

/-- How far a charge has come, in a run that started in `w`. -/
inductive ChargeStage (env : Env) (w : World) (txId source : String) :
    Program Response → World → Prop
  /-- The type of the source is asked for. -/
  | typing {v : World} (h : Untouched w v) (hnew : NewCharges w (fun _ ↦ False) v) :
    ChargeStage env w txId source
      (respond (await (Call.sourcesRetrieve source) fun r ↦
        chargeTyped env txId source (typeOfReply r))) v
  /-- The type is known. -/
  | typed {v : World} (type : Option String) (h : Untouched w v)
    (hnew : NewCharges w (fun _ ↦ False) v) :
    ChargeStage env w txId source (respond (chargeTyped env txId source type)) v
  /-- The row has been read. -/
  | read {v : World} (type : Option String) {row : TransactionStatus}
    (hrow : w.db.find? txId = some row) (h : Untouched w v)
    (hnew : NewCharges w (fun _ ↦ False) v) :
    ChargeStage env w txId source (respond (chargeRow env source type row)) v
  /-- The charge exists. -/
  | charged {v : World} {row : TransactionStatus} (chargeResult : Charge) (now : Date)
    (hrow : w.db.find? txId = some row) (hword : Word source) (h : Untouched w v)
    (hnew : NewCharges w (fun charge ↦ charge.metadata.sourceId = source) v) :
    ChargeStage env w txId source (chargePending row source chargeResult now) v
  /-- The row knows it. -/
  | saved {v : World} {t : Program Response} {row : TransactionStatus} {chargeResult : Charge}
    {now : Date} {uuid : ℕ → String} {saved : SavedStatus} (ht : t.Finished)
    (hrow : w.db.find? txId = some row) (hword : Word source)
    (hsave : w.db.save (attemptStatus row source chargeResult now) uuid = some (saved, v.db))
    (hqueue : v.queue = w.queue)
    (hnew : NewCharges w (fun charge ↦ charge.metadata.sourceId = source) v) :
    ChargeStage env w txId source t v
  /-- The charge was refused. -/
  | stopped {v : World} {t : Program Response} (ht : t.Finished)
    (hnew : NewCharges w (fun _ ↦ False) v) :
    ChargeStage env w txId source t v

theorem chargeStage_start (hremembers : w.provider.Remembers) :
    ChargeStage env w txId source (program env (.charge txId source)) w := by
  have hnew := newCharges_start hremembers
  have hprogram : program env (.charge txId source) = respond (charge env txId source) := rfl
  rw [hprogram, charge_eq]
  rcases findPaymentTypeFromSourceId_cases source with ⟨type, heq⟩ | heq
  · rw [heq]
    exact .typed type ⟨rfl, rfl⟩ hnew
  · rw [heq]
    exact .typing ⟨rfl, rfl⟩ hnew

theorem ChargeStage.background {t : Program Response} (h : ChargeStage env w txId source t v)
    (b : Move) : ChargeStage env w txId source t (b.apply v) := by
  cases h with
  | typing h hnew => exact .typing (h.background b) (hnew.background (fun _ _ h ↦ h) b)
  | typed type h hnew => exact .typed type (h.background b) (hnew.background (fun _ _ h ↦ h) b)
  | read type hrow h hnew =>
    exact .read type hrow (h.background b) (hnew.background (fun _ _ h ↦ h) b)
  | charged chargeResult now hrow hword h hnew =>
    exact .charged chargeResult now hrow hword (h.background b)
      (hnew.background (fun _ _ h ↦ h) b)
  | saved ht hrow hword hsave hqueue hnew =>
    rw [← Move.db_apply v b] at hsave
    exact .saved ht hrow hword hsave ((Move.queue_apply v b).trans hqueue)
      (hnew.background (fun _ _ h ↦ h) b)
  | stopped ht hnew => exact .stopped ht (hnew.background (fun _ _ h ↦ h) b)

theorem ChargeStage.step {c : Call} {k : Except JsError c.Reply → Program Response}
    (h : ChargeStage env w txId source (await c k) v) (o : Choice)
    (hok : (perform env v c o).1.isOk = true) :
    ChargeStage env w txId source (k (perform env v c o).1) (perform env v c o).2 := by
  generalize ht : await c k = t at h
  rcases perform_cases env v c o with ⟨heq, -⟩ | ⟨value, v', -, hanswer, heq⟩
  · rw [heq] at hok
    cases hok
  rw [heq]
  cases h with
  | typing h hnew =>
    cases ht
    obtain ⟨-, rfl⟩ := Prod.mk.inj (Option.some_inj.mp hanswer)
    exact .typed _ h hnew
  | typed type h hnew =>
    unfold chargeTyped at ht
    split at ht
    · cases ht
      obtain ⟨row, hrow, hpair⟩ := Option.map_eq_some_iff.mp hanswer
      obtain ⟨rfl, rfl⟩ := Prod.mk.inj hpair
      exact .read type (h.db ▸ hrow) h hnew
    · cases ht
  | read type hrow h hnew =>
    unfold chargeRow at ht
    split at ht
    · cases ht
      obtain ⟨hmakes, -, rfl, rfl⟩ := answer_chargesCreate hanswer
      have hmade : (chargeRequest env _ source type _).Makes (o.charge _) := ⟨o, hmakes, rfl⟩
      exact .charged _ o.now hrow hmade.word_source ⟨h.db, h.queue⟩ (hnew.create rfl)
    · cases ht
  | charged chargeResult now hrow hword h hnew =>
    cases ht
    obtain ⟨⟨saved, db⟩, hsave, hpair⟩ := Option.map_eq_some_iff.mp hanswer
    obtain ⟨rfl, rfl⟩ := Prod.mk.inj hpair
    rw [h.db] at hsave
    exact .saved trivial hrow hword hsave h.queue hnew
  | saved ht' hrow hword hsave hqueue hnew =>
    rw [← ht] at ht'
    exact ht'.elim
  | stopped ht' hnew =>
    rw [← ht] at ht'
    exact ht'.elim

end Charge

/-! ## The event, call by call -/

section Event

variable {env : Env} {u v : World} {info : TransactionStatus} {snapshot : Charge}
  {eventKey : OmiseChargeEvents}

/-- A webhook request answers that the event was received. -/
abbrev acknowledge (p : Program Unit) : Program Response := p >>= fun _ ↦ pure .received

theorem always_acknowledge {φ : Call → Prop} {p : Program Unit} (hp : Always φ p) :
    Always φ (acknowledge p) := hp.bind fun _ _ ↦ trivial

/-- The event is being validated. -/
def eventValidating (env : Env) (snapshot : Charge) (eventKey : OmiseChargeEvents) :
    Program Response :=
  acknowledge (await (Call.chargesRetrieve (.str snapshot.id))
    (afterFindCharge env snapshot.toJs (.str eventKey.value)))

/-- The event is valid, and its lookup is to come. -/
def eventLookingUp (env : Env) (snapshot : Charge) (eventKey : OmiseChargeEvents) :
    Program Response :=
  acknowledge (await (Call.statusFindOne (.str snapshot.metadata.sourceId))
    (afterLookup env snapshot.toJs (.str eventKey.value)))

/-- How far an event has come, in a run that started in `u`, where `info` is the row with its
source. -/
inductive EventStage (env : Env) (u : World) (info : TransactionStatus) (snapshot : Charge)
    (eventKey : OmiseChargeEvents) : Program Response → World → Prop
  /-- The provider is asked for the charge. -/
  | validating {v : World} (h : Untouched u v) :
    EventStage env u info snapshot eventKey (eventValidating env snapshot eventKey) v
  /-- The row is looked up. -/
  | lookingUp {v : World} (h : Untouched u v) :
    EventStage env u info snapshot eventKey (eventLookingUp env snapshot eventKey) v
  /-- The event is written to it. -/
  | saving {v : World} (now : Date) (h : Untouched u v) :
    EventStage env u info snapshot eventKey
      (acknowledge (await
        (Call.statusSave (recordedStatus env info (u.db.attached info.id) snapshot.toJs
          (.str eventKey.value) now))
        (afterSave env info snapshot.toJs))) v
  /-- The credit is sent. -/
  | crediting {v : World} {now : Date} {uuid : ℕ → String} {saved : SavedStatus}
    {msg : SqsMessageParams}
    (hsave : u.db.save (recordedStatus env info (u.db.attached info.id) snapshot.toJs
      (.str eventKey.value) now) uuid = some (saved, v.db))
    (hqueue : v.queue = u.queue) (hdue : creditDue env info snapshot.toJs = some msg) :
    EventStage env u info snapshot eventKey
      (acknowledge (await (Call.sqsSendMessage msg) (afterCredit env msg))) v
  /-- Nothing but a notification is left. -/
  | recorded {v : World} {t : Program Response} {now : Date} {uuid : ℕ → String}
    {saved : SavedStatus}
    (hsave : u.db.save (recordedStatus env info (u.db.attached info.id) snapshot.toJs
      (.str eventKey.value) now) uuid = some (saved, v.db))
    (hqueue : v.queue = u.queue ++ (creditDue env info snapshot.toJs).toList)
    (ht : Always (fun c ↦ ∃ payload, c = .notificationPost payload) t) :
    EventStage env u info snapshot eventKey t v

theorem createTransactionLog_event (env : Env) (snapshot : Charge) (eventKey : Js) :
    createTransactionLog env snapshot.toJs eventKey =
      await (Call.statusFindOne (.str snapshot.metadata.sourceId))
        (afterLookup env snapshot.toJs eventKey) :=
  createTransactionLog_of_source (sourceOf_toJs snapshot)

theorem program_eventRequest (hlow : env.Lowercase) (hid : snapshot.id ≠ "") :
    program env (eventRequest env eventKey snapshot) = eventValidating env snapshot eventKey := by
  have haccepted := eventAccepted_event hlow hid eventKey
  have hprogram : program env (eventRequest env eventKey snapshot) =
      acknowledge (CallbackController.handleOmiseCallBack env (eventBody eventKey snapshot)
        (eventHeaders env)) := rfl
  rcases CallbackController.handleOmiseCallBack_cases env (eventBody eventKey snapshot)
    (eventHeaders env) with ⟨hnot, -⟩ | ⟨-, hnot, -⟩ | ⟨-, -, heq⟩
  · have hevent : CallbackController.isChargeEvent (eventBody eventKey snapshot) = true := rfl
    exact absurd (hevent.symm.trans hnot) (by simp)
  · exact absurd haccepted hnot
  · rw [hprogram, heq]
    rfl

theorem EventStage.background {t : Program Response}
    (h : EventStage env u info snapshot eventKey t v) (b : Move) :
    EventStage env u info snapshot eventKey t (b.apply v) := by
  cases h with
  | validating h => exact .validating (h.background b)
  | lookingUp h => exact .lookingUp (h.background b)
  | saving now h => exact .saving now (h.background b)
  | crediting hsave hqueue hdue =>
    rw [← Move.db_apply v b] at hsave
    exact .crediting hsave ((Move.queue_apply v b).trans hqueue) hdue
  | recorded hsave hqueue ht =>
    rw [← Move.db_apply v b] at hsave
    exact .recorded hsave ((Move.queue_apply v b).trans hqueue) ht

theorem EventStage.step (hinfo : info ∈ u.db.statuses)
    (hsource : info.source = some snapshot.metadata.sourceId) {c : Call}
    {k : Except JsError c.Reply → Program Response}
    (h : EventStage env u info snapshot eventKey (await c k) v) (o : Choice)
    (hok : (perform env v c o).1.isOk = true) :
    EventStage env u info snapshot eventKey (k (perform env v c o).1) (perform env v c o).2 := by
  generalize ht : await c k = t at h
  rcases perform_cases env v c o with ⟨heq, -⟩ | ⟨value, v', -, hanswer, heq⟩
  · rw [heq] at hok
    cases hok
  cases h with
  | validating h =>
    cases ht
    rw [heq]
    obtain ⟨_, -, hpair⟩ := Option.map_eq_some_iff.mp hanswer
    obtain ⟨-, rfl⟩ := Prod.mk.inj hpair
    simp only [afterFindCharge, createTransactionLog_event]
    exact .lookingUp h
  | lookingUp h =>
    cases ht
    rw [heq]
    obtain ⟨-, hfind, rfl⟩ := answer_statusFindOne hanswer
    have hfound : u.db.findOneBySource (some snapshot.metadata.sourceId) o.pick =
        some (info, u.db.attached info.id) :=
      Db.findOneBySource_eq_some_iff.mpr ⟨hinfo, hsource, rfl⟩
    rw [h.db, Env.condition_str, hfound] at hfind
    subst hfind
    exact .saving o.now h
  | saving now h =>
    cases ht
    rw [heq]
    obtain ⟨⟨saved, db⟩, hsave, hpair⟩ := Option.map_eq_some_iff.mp hanswer
    obtain ⟨rfl, rfl⟩ := Prod.mk.inj hpair
    rw [h.db] at hsave
    simp only [afterSave]
    rcases hdue : creditDue env info snapshot.toJs with _ | msg
    · exact .recorded hsave (by rw [hdue]; simpa using h.queue)
        (always_acknowledge (always_announced_of_no_credit hdue))
    · rw [announced_of_creditDue hdue]
      exact .crediting hsave h.queue hdue
  | crediting hsave hqueue hdue =>
    cases ht
    rw [heq]
    obtain ⟨-, rfl⟩ := Prod.mk.inj (Option.some_inj.mp hanswer)
    exact .recorded hsave (by rw [hdue]; simp [hqueue])
      (always_acknowledge (always_afterCredit env _ _))
  | recorded hsave hqueue halways =>
    rw [← ht] at halways
    obtain ⟨payload, rfl⟩ := halways.1
    have hdb := db_perform env (w := v) (c := .notificationPost payload) (fun _ ↦ by simp) o
    have hqueue' := queue_perform env (w := v) (c := .notificationPost payload) (fun _ ↦ by simp) o
    exact .recorded (hdb.symm ▸ hsave) (hqueue'.trans hqueue) (halways.2 _ trivial)

theorem EventStage.of_finished {t : Program Response}
    (h : EventStage env u info snapshot eventKey t v) (ht : t.Finished) :
    (∃ now uuid saved, u.db.save (recordedStatus env info (u.db.attached info.id) snapshot.toJs
        (.str eventKey.value) now) uuid = some (saved, v.db)) ∧
      v.queue = u.queue ++ (creditDue env info snapshot.toJs).toList := by
  cases h with
  | recorded hsave hqueue _ => exact ⟨⟨_, _, _, hsave⟩, hqueue⟩
  | _ => exact ht.elim

end Event

/-! ## Both together -/

section Together

variable {env : Env} {w : World} {txId source : String} {snapshot : Charge}
  {eventKey : OmiseChargeEvents}

/-- No call failed. -/
def Answered (es : List Event) : Prop := ∀ e ∈ es, e.reply.isOk = true

instance (es : List Event) : Decidable (Answered es) :=
  inferInstanceAs (Decidable (∀ e ∈ es, _))

theorem chargeStage_run {p : Server} {q : Request} {t : Program Response}
    (htasks : p.tasks = [⟨q, t⟩]) (h : ChargeStage env w txId source t p.world)
    {as : List Step} (has : System.arrivals as = [])
    (hok : Answered ((system env).trace p as)) :
    ∃ t', ((system env).run p as).tasks = [⟨q, t'⟩] ∧
      ChargeStage env w txId source t' ((system env).run p as).world := by
  refine System.run_inv_of_no_arrivals (S := system env)
    (I := fun p ↦ ∃ t', p.tasks = [⟨q, t'⟩] ∧ ChargeStage env w txId source t' p.world)
    ?_ ?_ ⟨t, htasks, h⟩ has hok
  · rintro p i q' c k o ⟨t, htasks, hstage⟩ hi hok
    obtain ⟨rfl, heq⟩ : i = 0 ∧ (⟨q, t⟩ : Task Call Call.Reply JsError Response Request)
        = ⟨q', await c k⟩ := by
      rw [htasks] at hi
      cases i with
      | zero => exact ⟨rfl, Option.some_inj.mp hi⟩
      | succ i => cases hi
    obtain ⟨rfl, rfl⟩ := Task.mk.inj heq
    exact ⟨_, by rw [htasks]; rfl, hstage.step o hok⟩
  · rintro p b ⟨t, htasks, hstage⟩
    exact ⟨t, htasks, hstage.background b⟩

theorem task_of_pair {x y z : Task Call Call.Reply JsError Response Request} {i : ℕ}
    (h : [x, y][i]? = some z) : (i = 0 ∧ x = z) ∨ (i = 1 ∧ y = z) := by
  match i with
  | 0 => exact Or.inl ⟨rfl, Option.some_inj.mp h⟩
  | 1 => exact Or.inr ⟨rfl, Option.some_inj.mp h⟩
  | n + 2 => cases h

theorem eventStage_run {info : TransactionStatus} {u : World} (hinfo : info ∈ u.db.statuses)
    (hsource : info.source = some snapshot.metadata.sourceId) {p : Server} {q q' : Request}
    {t t' : Program Response} (htasks : p.tasks = [⟨q, t⟩, ⟨q', t'⟩]) (ht : t.Finished)
    (h : EventStage env u info snapshot eventKey t' p.world) {as : List Step}
    (has : System.arrivals as = []) (hok : Answered ((system env).trace p as)) :
    ∃ t'', ((system env).run p as).tasks = [⟨q, t⟩, ⟨q', t''⟩] ∧
      EventStage env u info snapshot eventKey t'' ((system env).run p as).world := by
  refine System.run_inv_of_no_arrivals (S := system env)
    (I := fun p ↦ ∃ t'', p.tasks = [⟨q, t⟩, ⟨q', t''⟩] ∧
      EventStage env u info snapshot eventKey t'' p.world) ?_ ?_ ⟨t', htasks, h⟩ has hok
  · rintro p i q'' c k o ⟨t'', htasks, hstage⟩ hi hok
    rw [htasks] at hi
    rcases task_of_pair hi with ⟨rfl, heq⟩ | ⟨rfl, heq⟩
    · obtain ⟨rfl, rfl⟩ := Task.mk.inj heq
      exact ht.elim
    · obtain ⟨rfl, rfl⟩ := Task.mk.inj heq
      exact ⟨_, by rw [htasks]; rfl, hstage.step hinfo hsource o hok⟩
  · rintro p b ⟨t'', htasks, hstage⟩
    exact ⟨t'', htasks, hstage.background b⟩

/-- What an event leaves when it comes after the save of its charge. -/
structure Settled (w v : World) (id source : String) (snapshot : Charge) : Prop where
  row : ∃ row, v.db.row? id = some row ∧ row.status = snapshot.status ∧ row.source = some source
  logs : ∃ api hook, v.db.attached id = [api, hook] ∧ api.channel = some "api" ∧
    hook.channel = some "webhook" ∧ hook.status = snapshot.status
  credit : snapshot.status = ChargeStatuses.successful.value →
    ∃ msg, v.queue = w.queue ++ [msg] ∧ msg.attributes.transactionId = id
  noCredit : snapshot.status ≠ ChargeStatuses.successful.value → v.queue = w.queue

theorem settled_of_saves {u v : World} {row : TransactionStatus} {chargeResult : Charge}
    {now : Date} {uuid : ℕ → String} {saved : SavedStatus}
    (hpriced : ∀ row ∈ w.db.statuses, Priced row.metadata) (hrow : w.db.row? row.id = some row)
    (hword : Word snapshot.status)
    (hsource : (attemptRow row row source chargeResult).source = some source)
    (hsave : w.db.save (attemptStatus row source chargeResult now) uuid = some (saved, u.db))
    (hqueue : u.queue = w.queue)
    (hrecord : ∃ now uuid saved, u.db.save
      (recordedStatus env (attemptRow row row source chargeResult) (u.db.attached row.id)
        snapshot.toJs (.str eventKey.value) now) uuid = some (saved, v.db))
    (hsent : v.queue = u.queue ++
      (creditDue env (attemptRow row row source chargeResult) snapshot.toJs).toList) :
    Settled w v row.id source snapshot := by
  obtain ⟨hmem, -⟩ := Db.row?_eq_some_iff.mp hrow
  obtain ⟨current, hcurrent, -, hinfo, hlogs, -⟩ := save_attemptStatus hsave
  obtain rfl := Option.some_inj.mp (hrow.symm.trans hcurrent)
  obtain ⟨now', uuid', saved', hrecord⟩ := hrecord
  obtain ⟨-, status, hcol, -, htables⟩ := save_recordedStatus_eq_some hinfo hrecord
  obtain rfl := status_of_word hword hcol
  have hrow' := Db.row?_of_withEvent htables hinfo
  have hlogs' : v.db.attached row.id = [attemptEntry row.id (uuid 1) now,
      eventEntry env (attemptRow row row source chargeResult) (.str eventKey.value) now' (uuid' 1)
        snapshot.status] := by
    have hattached := Db.attached_of_withEvent htables rfl row.id
    rw [hlogs] at hattached
    exact hattached.trans (congrArg _ (if_pos rfl))
  have hdue : snapshot.status = ChargeStatuses.successful.value →
      ∃ msg, creditDue env (attemptRow row row source chargeResult) snapshot.toJs = some msg := by
    intro hsuccess
    have hreadable := ((hpriced row hmem).charged chargeResult).readable env
    rw [creditDue_of_success (by rw [Charge.prop_status_toJs, hsuccess])]
    exact Option.isSome_iff_exists.mp ((readable_iff _ _).mpr hreadable)
  constructor
  · exact ⟨_, hrow', rfl, hsource⟩
  · exact ⟨_, _, hlogs', rfl, rfl, rfl⟩
  · intro hsuccess
    obtain ⟨msg, hmsg⟩ := hdue hsuccess
    refine ⟨msg, ?_, (transactionId_of_creditDue hmsg).1⟩
    rw [hsent, hmsg, hqueue]
    rfl
  · -- Any other status owes no message.
    intro hno
    have hnone : creditDue env (attemptRow row row source chargeResult) snapshot.toJs = none := by
      refine if_neg fun hsuccess ↦ hno ?_
      exact Js.str.inj (Js.isStr_iff.mp hsuccess)
    rw [hsent, hnone, hqueue]
    exact List.append_nil _

theorem settled_run {p : Server} {q q' : Request} {t t' : Program Response} {u : World}
    {row : TransactionStatus} {chargeResult : Charge} {now : Date} {uuid : ℕ → String}
    {saved : SavedStatus} {as : List Step}
    (hpriced : ∀ row ∈ w.db.statuses, Priced row.metadata) (hrow : w.db.row? row.id = some row)
    (hword : Word source) (hstatus : Word snapshot.status)
    (hsave : w.db.save (attemptStatus row source chargeResult now) uuid = some (saved, u.db))
    (hqueue : u.queue = w.queue) (hsource : snapshot.metadata.sourceId = source)
    (htasks : p.tasks = [⟨q, t⟩, ⟨q', t'⟩]) (ht : t.Finished)
    (hstage : EventStage env u (attemptRow row row source chargeResult) snapshot eventKey t'
      p.world)
    (has : System.arrivals as = []) (hok : Answered ((system env).trace p as))
    (hfin : ∀ t ∈ ((system env).run p as).tasks, t.rest.Finished) :
    Settled w ((system env).run p as).world row.id source snapshot := by
  obtain ⟨current, hcurrent, htaken, hinfo, -⟩ := save_attemptStatus hsave
  obtain rfl := Option.some_inj.mp (hrow.symm.trans hcurrent)
  have hholds := attemptRow_source htaken hword row
  obtain ⟨t'', htasks', hstage'⟩ := eventStage_run (Db.row?_eq_some_iff.mp hinfo).1
    (hholds.trans (congrArg some hsource.symm)) htasks ht hstage has hok
  have hfinished : t''.Finished := hfin ⟨q', t''⟩ (by rw [htasks']; simp)
  obtain ⟨hrecord, hsent⟩ := hstage'.of_finished hfinished
  exact settled_of_saves hpriced hrow hstatus hholds hsave hqueue hrecord hsent

/-- Up to the save of its charge, an event is not looked up. -/
theorem waiting_run {p : Server} {q q' : Request} {t : Program Response}
    (htasks : p.tasks = [⟨q, t⟩, ⟨q', eventValidating env snapshot eventKey⟩])
    (h : Untouched w p.world) {as : List Step} (has : System.arrivals as = [])
    (hcalls : ∀ e ∈ (system env).trace p as,
      e.reply.isOk = true ∧ e.task ≠ 0 ∧ (e.task = 1 → e.call.readsStatus = false)) :
    ∃ t', ((system env).run p as).tasks = [⟨q, t⟩, ⟨q', t'⟩] ∧
      (t' = eventValidating env snapshot eventKey ∨ t' = eventLookingUp env snapshot eventKey) ∧
      Untouched w ((system env).run p as).world := by
  refine System.run_inv_of_no_arrivals (S := system env)
    (I := fun p ↦ ∃ t', p.tasks = [⟨q, t⟩, ⟨q', t'⟩] ∧
      (t' = eventValidating env snapshot eventKey ∨ t' = eventLookingUp env snapshot eventKey) ∧
      Untouched w p.world) ?_ ?_ ⟨_, htasks, Or.inl rfl, h⟩ has hcalls
  · rintro p i q'' c k o ⟨t', htasks, ht', h⟩ hi ⟨hok, hzero, hreads⟩
    rw [htasks] at hi
    rcases task_of_pair hi with ⟨rfl, -⟩ | ⟨rfl, heq⟩
    · exact absurd rfl hzero
    · obtain ⟨rfl, rfl⟩ := Task.mk.inj heq
      rcases ht' with ht' | ht'
      · cases ht'
        have hafter := h.perform env (c := .chargesRetrieve (.str snapshot.id))
          (fun _ ↦ by simp) (fun _ ↦ by simp) o
        refine ⟨_, by rw [htasks]; rfl, Or.inr ?_, hafter⟩
        change (perform env p.world (.chargesRetrieve (.str snapshot.id)) o).1.isOk = true at hok
        change acknowledge (afterFindCharge env snapshot.toJs (.str eventKey.value)
          (perform env p.world (.chargesRetrieve (.str snapshot.id)) o).1) = _
        rcases hreply : (perform env p.world (.chargesRetrieve (.str snapshot.id)) o).1 with e | r
        · rw [hreply] at hok
          cases hok
        · simp only [afterFindCharge, createTransactionLog_event]
          rfl
      · cases ht'
        exact absurd (hreads rfl) (by simp [Call.readsStatus])
  · rintro p b ⟨t', htasks, ht', h⟩
    exact ⟨t', htasks, ht', h.background b⟩

theorem settled_of_save {p p' : Server} {q q' : Request} {t' : Program Response}
    {row : TransactionStatus} {chargeResult : Charge} {now : Date} {o : Choice} {as : List Step}
    (hpriced : ∀ row ∈ w.db.statuses, Priced row.metadata) (hrow : w.db.row? row.id = some row)
    (hword : Word source) (hstatus : Word snapshot.status)
    (hsource : snapshot.metadata.sourceId = source)
    (htasks : p.tasks = [⟨q, chargePending row source chargeResult now⟩, ⟨q', t'⟩])
    (ht' : t' = eventValidating env snapshot eventKey ∨ t' = eventLookingUp env snapshot eventKey)
    (h : Untouched w p.world)
    (hsaved : (perform env p.world (.statusSave (attemptStatus row source chargeResult now))
      o).1.isOk = true)
    (hp' : p' = ⟨(perform env p.world
        (.statusSave (attemptStatus row source chargeResult now)) o).2,
      p.tasks.set 0 ⟨q, respond (afterChargeSave chargeResult source now (perform env p.world
        (.statusSave (attemptStatus row source chargeResult now)) o).1)⟩⟩)
    (has : System.arrivals as = []) (hok : Answered ((system env).trace p' as))
    (hfin : ∀ t ∈ ((system env).run p' as).tasks, t.rest.Finished) :
    Settled w ((system env).run p' as).world row.id source snapshot := by
  rw [perform_statusSave] at hsaved hp'
  rcases houtcome : saveOutcome p.world.db (attemptStatus row source chargeResult now) o with
    _ | ⟨saved, db⟩
  · rw [houtcome] at hsaved
    cases hsaved
  · rw [houtcome, htasks] at hp'
    obtain ⟨-, hdb⟩ := saveOutcome_eq_some.mp houtcome
    rw [h.db] at hdb
    have hstage : EventStage env { p.world with db } (attemptRow row row source chargeResult)
        snapshot eventKey t' p'.world := by
      rw [hp']
      rcases ht' with rfl | rfl
      · exact .validating ⟨rfl, rfl⟩
      · exact .lookingUp ⟨rfl, rfl⟩
    have htasks' : p'.tasks = [⟨q, respond (afterChargeSave chargeResult source now
        (.ok (saved, o.now)))⟩, ⟨q', t'⟩] := by
      rw [hp']
      rfl
    exact settled_run (u := { p.world with db }) hpriced hrow hword hstatus hdb h.queue hsource
      htasks' trivial hstage has hok hfin

/-- No call of task 1 reads a row before task 0 saves one. -/
def LookupAfterSave (es : List Event) : Prop :=
  es.Pairwise fun f e ↦
    f.task = 1 → f.call.readsStatus = true → e.task = 0 → e.call.savesStatus = false

instance (es : List Event) : Decidable (LookupAfterSave es) :=
  inferInstanceAs (Decidable (es.Pairwise _))

/-- From the creation of the charge on: if both are handled to their end and the lookup comes after
the save, the event is recorded and credited. -/
theorem settled_of_pending {p : Server} {q q' : Request} {row : TransactionStatus}
    {chargeResult : Charge} {now : Date} {as : List Step}
    (hpriced : ∀ row ∈ w.db.statuses, Priced row.metadata) (hrow : w.db.row? row.id = some row)
    (hword : Word source) (hstatus : Word snapshot.status)
    (hsource : snapshot.metadata.sourceId = source)
    (htasks : p.tasks = [⟨q, chargePending row source chargeResult now⟩,
      ⟨q', eventValidating env snapshot eventKey⟩])
    (h : Untouched w p.world) (has : System.arrivals as = [])
    (hok : Answered ((system env).trace p as))
    (horder : LookupAfterSave ((system env).trace p as))
    (hfin : ∀ t ∈ ((system env).run p as).tasks, t.rest.Finished) :
    Settled w ((system env).run p as).world row.id source snapshot := by
  have hpending : p.tasks[0]? = some ⟨q, chargePending row source chargeResult now⟩ := by
    rw [htasks]
    rfl
  rcases hfirst : ((system env).trace p as).find? (fun e ↦ e.task = 0) with _ | e
  · -- Without a call of the charge, it is still pending.
    have hno : ∀ e ∈ (system env).trace p as, e.task ≠ 0 := by simpa using hfirst
    have hsame := System.task_of_no_calls hpending hno
    exact (hfin _ (List.mem_of_getElem? hsame)).elim
  · obtain ⟨hzero, es, es', htrace, hbefore⟩ := List.find?_eq_some_iff_append.mp hfirst
    have hzero' : e.task = 0 := by simpa using hzero
    have hbefore' : ∀ f ∈ es, f.task ≠ 0 := by simpa using hbefore
    obtain ⟨bs, a, cs, rfl, hbs, hcall, hcs⟩ := System.trace_split _ htrace
    rw [htrace] at hok horder
    -- Its first call is the save.
    have hstill := System.task_of_no_calls hpending (hbs.symm ▸ hbefore')
    obtain ⟨q'', c, k, o, htask, he, hworld⟩ := System.exists_of_advance_eq_some hcall
    rw [hzero', hstill] at htask
    obtain ⟨rfl, hprogram⟩ := Task.mk.inj (Option.some_inj.mp htask)
    cases hprogram
    have hsaves : e.call.savesStatus = true := by
      rw [he]
      rfl
    have hsaved := hok e (List.mem_append_right _ List.mem_cons_self)
    rw [he] at hsaved
    -- So up to there the event has not been looked up.
    have hreads : ∀ f ∈ es, f.task = 1 → f.call.readsStatus = false := by
      intro f hf hone
      by_contra hread
      rw [Bool.not_eq_false] at hread
      have hnot := (List.pairwise_append.mp horder).2.2 f hf e List.mem_cons_self
      rw [hnot hone hread hzero'] at hsaves
      cases hsaves
    rw [System.arrivals_append, List.append_eq_nil_iff] at has
    have hrest : System.arrivals cs = [] := by
      cases a with
      | spawn q => exact absurd has.2 (by simp [System.arrivals])
      | env b => exact has.2
      | resume i o => exact has.2
    obtain ⟨t', htasks', ht', huntouched⟩ := waiting_run htasks h has.1 fun f hf ↦
      ⟨hok f (List.mem_append_left _ (hbs ▸ hf)), hbefore' f (hbs ▸ hf), hreads f (hbs ▸ hf)⟩
    rw [hzero'] at hworld
    rw [System.run_append, System.run_cons] at hfin ⊢
    refine settled_of_save hpriced hrow hword hstatus hsource htasks' ht' huntouched hsaved hworld
      hrest ?_ hfin
    rw [hcs]
    exact fun f hf ↦ hok f (List.mem_append_right _ (List.mem_cons_of_mem _ hf))

end Together

/-- The moves of a charge request, and of an event that arrives in between. -/
def ownEventMoves (env : Env) (txId source : String) (eventKey : OmiseChargeEvents)
    (snapshot : Charge) (bs cs : List Step) : List Step :=
  (.spawn (.charge txId source) :: bs) ++ .spawn (eventRequest env eventKey snapshot) :: cs

/-- A charge request, and at some moment an event about a charge that the provider did not have when
the request arrived, in a state that the charge has been in; nothing else arrives, the provider may
settle charges at any time, no call fails, and both are handled to their end. -/
structure OwnEvent (env : Env) (w : World) (txId source : String) (eventKey : OmiseChargeEvents)
    (snapshot : Charge) (bs cs : List Step) : Prop where
  alone : System.arrivals (bs ++ cs) = []
  truthful : snapshot ∈ ((system env).run (Server.start w)
    (.spawn (.charge txId source) :: bs)).world.provider.snapshots
  own : (w.provider.charge? snapshot.id).isNone = true
  named : snapshot.id ≠ ""
  answered : Answered ((system env).trace (Server.start w)
    (ownEventMoves env txId source eventKey snapshot bs cs))
  finished : ∀ t ∈ ((system env).run (Server.start w)
    (ownEventMoves env txId source eventKey snapshot bs cs)).tasks, t.rest.Finished

/-- From every state that is reached, in every interleaving of a charge with its own event in which
the event is looked up after the save of the charge: the row that `txId` stands for ends in the
status of the event, with both entries attached, and the credit of a success has been sent, once. -/
theorem event_after_save (env : Env) (hlow : env.Lowercase) (as : List Step) (txId source : String)
    (eventKey : OmiseChargeEvents) (snapshot : Charge) (bs cs : List Step)
    (h : OwnEvent env ((system env).run (Server.start World.empty) as).world txId source eventKey
      snapshot bs cs)
    (horder : LookupAfterSave ((system env).trace
      (Server.start ((system env).run (Server.start World.empty) as).world)
      (ownEventMoves env txId source eventKey snapshot bs cs))) :
    ∃ id, Sql.Uuid.read txId = some id ∧
      Settled ((system env).run (Server.start World.empty) as).world
        ((system env).run (Server.start ((system env).run (Server.start World.empty) as).world)
          (ownEventMoves env txId source eventKey snapshot bs cs)).world
        id source snapshot := by
  have hpriced := priced_run env as
  have hremembers := remembers_run env (p := Server.start World.empty) Provider.remembers_empty as
  set w := ((system env).run (Server.start World.empty) as).world
  obtain ⟨halone, htruthful, hown, hnamed, hok, hfin⟩ := h
  rw [System.arrivals_append, List.append_eq_nil_iff] at halone
  rw [ownEventMoves, System.trace_append] at hok horder
  rw [ownEventMoves, System.run_append] at hfin ⊢
  set p := (system env).run (Server.start w) (.spawn (.charge txId source) :: bs) with hp
  -- When the event arrives, the charge has come to one of its stages.
  have hcharge : ∃ t, p.tasks = [⟨.charge txId source, t⟩] ∧
      ChargeStage env w txId source t p.world :=
    chargeStage_run (p := ((system env).advance (Server.start w) (.spawn (.charge txId source))).2)
      rfl (chargeStage_start hremembers) halone.1 fun e he ↦
        hok e (List.mem_append_left _ he)
  obtain ⟨t, htasks, hstage⟩ := hcharge
  have hstatus : Word snapshot.status :=
    (remembers_run env (p := Server.start w) hremembers
      (.spawn (.charge txId source) :: bs)).wordStatus snapshot htruthful
  have hfresh : w.provider.charge? snapshot.id = none := Option.isNone_iff_eq_none.mp hown
  have hboth : ((system env).advance p (.spawn (eventRequest env eventKey snapshot))).2.tasks =
      [⟨.charge txId source, t⟩,
        ⟨eventRequest env eventKey snapshot, eventValidating env snapshot eventKey⟩] := by
    rw [System.advance_spawn, htasks, ← program_eventRequest hlow hnamed]
    rfl
  have hok' : Answered ((system env).trace
      ((system env).advance p (.spawn (eventRequest env eventKey snapshot))).2 cs) :=
    fun e he ↦ hok e (List.mem_append_right _ he)
  have horder' := (List.pairwise_append.mp horder).2.1
  rw [System.run_cons] at hfin ⊢
  -- There is no event of a charge that does not exist, which leaves the last two stages.
  cases hstage with
  | typing _ hnew => exact (hnew snapshot (Or.inr htruthful) hfresh).elim
  | typed _ _ hnew => exact (hnew snapshot (Or.inr htruthful) hfresh).elim
  | read _ _ _ hnew => exact (hnew snapshot (Or.inr htruthful) hfresh).elim
  | stopped _ hnew => exact (hnew snapshot (Or.inr htruthful) hfresh).elim
  | charged chargeResult now hrow hword huntouched hnew =>
    have hsource := hnew snapshot (Or.inr htruthful) hfresh
    obtain ⟨hread, hrow⟩ := Db.find?_eq_some_iff.mp hrow
    exact ⟨_, hread, settled_of_pending hpriced hrow hword hstatus hsource hboth huntouched halone.2
      hok' horder' hfin⟩
  | saved ht hrow hword hsave hqueue hnew =>
    have hsource := hnew snapshot (Or.inr htruthful) hfresh
    obtain ⟨hread, hrow⟩ := Db.find?_eq_some_iff.mp hrow
    exact ⟨_, hread, settled_run hpriced hrow hword hstatus hsave hqueue hsource hboth ht
      (.validating ⟨rfl, rfl⟩) halone.2 hok' hfin⟩

namespace Shop

/-- The charge `first2` is created and succeeds at once, before the order is saved. -/
def chargeMade : List Step :=
  resumes 0 "first" 3 ++ [.env (.settle "first2" ChargeStatuses.successful.value)]

/-- The states the provider's charges have been in then. -/
def reportable : List Charge :=
  ((system platform).run (Server.start (after purchase).world)
    (.spawn (.charge Shop.orderId "src_1") :: chargeMade)).world.provider.snapshots

theorem one_lt_reportable : 1 < reportable.length := by decide +kernel

/-- The successful charge, as the provider reports it. -/
def report : Charge := reportable.get ⟨1, one_lt_reportable⟩

/-- Resume the two tasks as listed: the charge is task 0, its event task 1. -/
def goOn (tasks : List ℕ) : List Step :=
  tasks.mapIdx fun n i ↦ .resume i (choice ("go" ++ toString n))

/-- The event is looked up after the save. -/
def lookupLast : List Step := goOn [1, 0, 1, 1, 1, 1]

/-- The event is looked up before the save. -/
def lookupFirst : List Step := goOn [1, 1, 0]

theorem ownEvent_lookupLast : OwnEvent platform (after purchase).world Shop.orderId "src_1" .complete
    report chargeMade lookupLast where
  alone := rfl
  truthful := List.get_mem _ _
  own := by decide +kernel
  named := by decide +kernel
  answered := by decide +kernel
  finished := by decide +kernel

theorem ownEvent_lookupFirst : OwnEvent platform (after purchase).world Shop.orderId "src_1"
    .complete report chargeMade lookupFirst where
  alone := rfl
  truthful := List.get_mem _ _
  own := by decide +kernel
  named := by decide +kernel
  answered := by decide +kernel
  finished := by decide +kernel

end Shop

/-- The order is paid and credited when its event is looked up last. -/
theorem event_after_save_in_shop :
    ∃ id, Sql.Uuid.read Shop.orderId = some id ∧
      Settled (Shop.after Shop.purchase).world
        ((system Shop.platform).run (Server.start (Shop.after Shop.purchase).world)
          (ownEventMoves Shop.platform Shop.orderId "src_1" .complete Shop.report Shop.chargeMade
            Shop.lookupLast)).world
        id "src_1" Shop.report :=
  event_after_save Shop.platform Shop.platform_lowercase Shop.purchase Shop.orderId "src_1" .complete
    Shop.report Shop.chargeMade Shop.lookupLast Shop.ownEvent_lookupLast (by decide +kernel)

/-- When it is looked up first, it is acknowledged, and the order stays pending. -/
theorem event_before_save :
    OwnEvent Shop.platform (Shop.after Shop.purchase).world Shop.orderId "src_1" .complete
        Shop.report Shop.chargeMade Shop.lookupFirst ∧
      ¬∃ id, Sql.Uuid.read Shop.orderId = some id ∧
        Settled (Shop.after Shop.purchase).world
          ((system Shop.platform).run (Server.start (Shop.after Shop.purchase).world)
            (ownEventMoves Shop.platform Shop.orderId "src_1" .complete Shop.report Shop.chargeMade
              Shop.lookupFirst)).world
          id "src_1" Shop.report := by
  refine ⟨Shop.ownEvent_lookupFirst, ?_⟩
  rintro ⟨id, hid, h⟩
  have hread : Sql.Uuid.read Shop.orderId = some Shop.orderId := by decide +kernel
  obtain rfl := Option.some_inj.mp (hread.symm.trans hid)
  obtain ⟨row, hrow, hstatus, -⟩ := h.row
  have hpending : (((system Shop.platform).run (Server.start (Shop.after Shop.purchase).world)
      (ownEventMoves Shop.platform Shop.orderId "src_1" .complete Shop.report Shop.chargeMade
        Shop.lookupFirst)).world.db.row? Shop.orderId).map (·.status) =
          some ChargeStatuses.pending.value := by decide +kernel
  have hsuccess : Shop.report.status = ChargeStatuses.successful.value := by decide +kernel
  rw [hrow, Option.map_some, hstatus, hsuccess] at hpending
  exact absurd hpending (by decide)

end PaymentService
