import PaymentService.Provenance

/-!
# What the requests write, in every run

`Issues Row q c` lists the calls a request can issue, with everything the code puts into them, given
that the rows it has read had the property `Row`. A `RowProperty` is a property that new rows have
and that every write carries over from the rows it was computed from; `RowProperty.contract` is the
rely-guarantee argument that then every row has it at every moment, whatever the interleaving and
whichever calls fail. `RowProperty.trivial` has no content of its own; its contract is the one that
says which calls a run contains.

A `RowConstant` is a view of the rows that writes carry over. What a request writes may be computed
from a row read long ago, so the argument has to say that what was read still agrees with the table
in the view when it is written back.
-/

namespace PaymentService

open Async

/-! ## The calls of a request -/

/-- The calls a request can issue, after reading rows with the property `Row`. -/
inductive Issues (env : Env) (Row : TransactionStatus → Prop) : Request → Call → Prop
  | tokenPackagesGet {user : Option String} {product : ℚ} {type : String} :
    Issues env Row (.pay user product type) (.tokenPackagesGet product)
  | paySave {user : Option String} {product : ℚ} {type : String}
    (tokenPackage : TokenPackageResponse) (now : Date) :
    Issues env Row (.pay user product type)
      (.statusSave (newTransactionStatus env tokenPackage user product type now))
  | sourcesRetrieve {txId source : String} :
    Issues env Row (.charge txId source) (.sourcesRetrieve source)
  | read {txId source : String} :
    Issues env Row (.charge txId source) (.statusFindOneByOrFail txId)
  | create {txId source : String} {row : TransactionStatus} {productId : Js}
    (type : Option String) (hid : Sql.Uuid.read txId = some row.id) (hfits : row.Fits)
    (hrow : Row row) (hproduct : row.metadata.get? "productId" = some productId) :
    Issues env Row (.charge txId source)
      (.chargesCreate (chargeRequest env row source type productId))
  | chargeSave {txId source : String} {row : TransactionStatus} {type : Option String}
    {productId : Js} {chargeResult : Charge} (now : Date)
    (hid : Sql.Uuid.read txId = some row.id) (hfits : row.Fits) (hrow : Row row)
    (hmakes : (chargeRequest env row source type productId).Makes chargeResult) :
    Issues env Row (.charge txId source)
      (.statusSave (attemptStatus row source chargeResult now))
  | chargesRetrieve {body : Js} {headers : Headers} :
    Issues env Row (.omiseCallback body headers)
      (.chargesRetrieve ((body.prop "data").prop "id"))
  | lookup {body : Js} {headers : Headers} {sourceId : Js}
    (hsource : CallbackService.sourceOf (body.prop "data") = some sourceId) :
    Issues env Row (.omiseCallback body headers) (.statusFindOne sourceId)
  | record {body : Js} {headers : Headers} {info : TransactionStatus} (logs : List TransactionLog)
    (now : Date) (hfits : info.Fits) (hinfo : Row info) :
    Issues env Row (.omiseCallback body headers)
      (.statusSave
        (CallbackService.recordedStatus env info logs (body.prop "data") (body.prop "key") now))
  | credit {body : Js} {headers : Headers} {info : TransactionStatus} {msg : SqsMessageParams}
    (hinfo : Row info)
    (hdue : CallbackService.creditDue env info (body.prop "data") = some msg) :
    Issues env Row (.omiseCallback body headers) (.sqsSendMessage msg)
  | notify {body : Js} {headers : Headers} (payload : PushNotificationPayloadV2) :
    Issues env Row (.omiseCallback body headers) (.notificationPost payload)

/-- What the programs rely on: a row that is read fits the columns and has the property, a row read by
its identifier has that identifier, and a charge that is created was made of the request. -/
def Reads (Row : TransactionStatus → Prop) : (c : Call) → Except JsError c.Reply → Prop
  | .statusFindOneByOrFail id, .ok (row, _) =>
    Sql.Uuid.read id = some row.id ∧ row.Fits ∧ Row row
  | .statusFindOne _, .ok (some (row, _), _) => row.Fits ∧ Row row
  | .chargesCreate request, .ok (charge, _) => request.Makes charge
  | _, _ => True

theorem Reads.mono {Row Row' : TransactionStatus → Prop} (h : ∀ row, Row row → Row' row) {c : Call}
    {r : Except JsError c.Reply} (hr : Reads Row c r) : Reads Row' c r := by
  cases c with
  | statusFindOneByOrFail id =>
    rcases r with e | ⟨row, now⟩
    · trivial
    · exact ⟨hr.1, hr.2.1, h row hr.2.2⟩
  | statusFindOne source =>
    rcases r with e | ⟨_ | ⟨row, logs⟩, now⟩
    · trivial
    · trivial
    · exact ⟨hr.1, h row hr.2⟩
  | chargesCreate request => cases r <;> exact hr
  | _ => trivial

theorem reads_perform {env : Env} {Row : TransactionStatus → Prop} {w : World} (c : Call)
    (o : Choice) (h : ∀ row ∈ w.db.statuses, Row row) : Reads Row c (perform env w c o).1 := by
  rcases perform_cases env w c o with ⟨heq, -⟩ | ⟨value, w', -, hanswer, heq⟩
  · rw [heq]
    cases c <;> trivial
  · rw [heq]
    cases c with
    | statusFindOneByOrFail id =>
      obtain ⟨row, hrow, hpair⟩ := Option.map_eq_some_iff.mp hanswer
      obtain ⟨rfl, rfl⟩ := Prod.mk.inj hpair
      obtain ⟨hid, hfound⟩ := Db.find?_eq_some_iff.mp hrow
      exact ⟨hid, Db.fits_of_row? hfound, h row (Db.row?_eq_some_iff.mp hfound).1⟩
    | statusFindOne source =>
      obtain ⟨-, hfind, -⟩ := answer_statusFindOne hanswer
      rcases value with _ | ⟨row, logs⟩
      · trivial
      · have hmem := (Db.mem_of_findOneBySource hfind).1
        exact ⟨w.db.legal.statusFits row hmem, h row hmem⟩
    | chargesCreate request =>
      obtain ⟨hmakes, -, hcharge, -⟩ := answer_chargesCreate hanswer
      exact ⟨o, hmakes, hcharge⟩
    | _ => trivial

/-- What a request issues on the answers it relies on is among the calls listed for it. -/
theorem Issued.issues {env : Env} {Row : TransactionStatus → Prop} {q : Request} {c : Call}
    (h : Issued env (Reads Row) q c) : Issues env Row q c := by
  cases h with
  | tokenPackagesGet => exact .tokenPackagesGet
  | paySave _ => exact .paySave _ _
  | sourcesRetrieve => exact .sourcesRetrieve
  | read _ _ => exact .read
  | create _ _ hrow hproduct =>
    obtain ⟨hid, hfits, hrow⟩ := hrow
    exact .create _ hid hfits hrow hproduct
  | chargeSave hrow _ hmakes =>
    obtain ⟨hid, hfits, hrow⟩ := hrow
    exact .chargeSave _ hid hfits hrow hmakes
  | chargesRetrieve _ _ => exact .chargesRetrieve
  | lookup _ hsource => exact .lookup hsource
  | record hfound =>
    obtain ⟨sourceId, -, hfits, hinfo⟩ := hfound.found
    exact .record _ _ hfits hinfo
  | credit hrecorded hdue =>
    obtain ⟨sourceId, -, -, hinfo⟩ := hrecorded.found
    exact .credit hinfo hdue
  | notifySuccess _ _ _ _ => exact .notify _
  | notifyFailure _ _ => exact .notify _

theorem follows_program (env : Env) (Row : TransactionStatus → Prop) (q : Request) :
    Follows (Reads Row) (Issues env Row q) (fun _ ↦ True) (program env q) :=
  (follows_issued env (Reads Row) q).mono (fun _ h ↦ h.issues) fun _ ↦ id

/-! ## Properties of the rows -/

/-- A property of rows that new rows have and every write carries over from the rows it was computed
from. -/
structure RowProperty (env : Env) where
  Row : TransactionStatus → Prop
  pay : ∀ {tokenPackage user product type now id row},
    (newTransactionStatus env tokenPackage user product type now).insert id = some row → Row row
  charge : ∀ {read row source chargeResult now row'}, Row read → Row row → read.id = row.id →
    row.update (attemptStatus read source chargeResult now) = some row' → Row row'
  record : ∀ {info row logs data eventKey now row'}, Row info → Row row → info.id = row.id →
    row.update (CallbackService.recordedStatus env info logs data eventKey now) = some row' →
      Row row'
  recordNew : ∀ {info logs data eventKey now id row'}, Row info →
    (CallbackService.recordedStatus env info logs data eventKey now).insert id = some row' →
      Row row'

namespace RowProperty

variable {env : Env}

theorem issues_statusSave {Row : TransactionStatus → Prop} {q : Request} {obj : StatusObject}
    (h : Issues env Row q (.statusSave obj)) :
    (∃ user product type tokenPackage now, q = .pay user product type ∧
        obj = newTransactionStatus env tokenPackage user product type now) ∨
      (∃ txId row source type productId chargeResult now, q = .charge txId source ∧
        Sql.Uuid.read txId = some row.id ∧ Row row ∧
        (chargeRequest env row source type productId).Makes chargeResult ∧
        obj = attemptStatus row source chargeResult now) ∨
      ∃ body headers info logs now, q = .omiseCallback body headers ∧ info.Fits ∧ Row info ∧
        obj = CallbackService.recordedStatus env info logs (body.prop "data") (body.prop "key")
          now := by
  generalize hc : Call.statusSave obj = c at h
  cases h <;> cases hc
  · exact Or.inl ⟨_, _, _, _, _, rfl, rfl⟩
  · exact Or.inr (Or.inl ⟨_, _, _, _, _, _, _, rfl, ‹_›, ‹_›, ‹_›, rfl⟩)
  · exact Or.inr (Or.inr ⟨_, _, _, _, _, rfl, ‹_›, ‹_›, rfl⟩)

theorem row_save (P : RowProperty env) {q : Request} {obj : StatusObject} {db db' : Db}
    {uuid : ℕ → String} {saved : SavedStatus} (hq : Issues env P.Row q (.statusSave obj))
    (hdb : ∀ row ∈ db.statuses, P.Row row) (hsave : db.save obj uuid = some (saved, db')) :
    ∀ row ∈ db'.statuses, P.Row row := by
  intro row' hrow'
  rcases issues_statusSave hq with ⟨user, product, type, tokenPackage, now, -, rfl⟩ |
    ⟨txId, read, source, type, productId, chargeResult, now, -, -, hread, -, rfl⟩ |
    ⟨body, headers, info, logs, now, -, -, hinfo, rfl⟩
  · rcases Db.mem_statuses_save hsave hrow' with hold | ⟨hins, -⟩ | ⟨row, -, hid, -⟩
    · exact hdb row' hold
    · exact P.pay hins
    · exact absurd hid (by simp [newTransactionStatus])
  · rcases Db.mem_statuses_save hsave hrow' with hold | ⟨hins, -⟩ | ⟨row, hrow, hid, hupd⟩
    · exact hdb row' hold
    · exact absurd hins (by rw [insert_attemptStatus]; simp)
    · exact P.charge hread (hdb row hrow) (Option.some_inj.mp hid) hupd
  · rcases Db.mem_statuses_save hsave hrow' with hold | ⟨hins, -⟩ | ⟨row, hrow, hid, hupd⟩
    · exact hdb row' hold
    · exact P.recordNew hinfo hins
    · exact P.record hinfo (hdb row hrow) (Option.some_inj.mp hid) hupd

/-- The rely-guarantee argument for a property of the rows. -/
def contract (P : RowProperty env) : System.Contract (system env) where
  inv w := ∀ row ∈ w.db.statuses, P.Row row
  evolves _ _ := True
  rely _ := Reads P.Row
  guarantee _ := Issues env P.Row
  evolves_refl _ := trivial
  evolves_trans _ _ := trivial
  rely_mono _ hr := hr
  keeps := by
    intro w q c o hw hq
    refine ⟨?_, trivial⟩
    change ∀ row ∈ (perform env w c o).2.db.statuses, P.Row row
    by_cases hc : ∀ obj, c ≠ .statusSave obj
    · rw [db_perform env hc]
      exact hw
    · push Not at hc
      obtain ⟨obj, rfl⟩ := hc
      rw [perform_statusSave]
      rcases hsave : saveOutcome w.db obj o with _ | ⟨saved, db⟩
      · exact hw
      · exact P.row_save hq hw (saveOutcome_eq_some.mp hsave).2
  answers := by
    intro w q c o hw _
    apply reads_perform
    intro row hrow
    exact hw row hrow
  background b hw := ⟨fun row hrow ↦ hw row (Move.db_apply _ b ▸ hrow), trivial⟩
  program _ := follows_program env P.Row

/-- The property that says nothing. -/
def trivial (env : Env) : RowProperty env where
  Row _ := True
  pay _ := True.intro
  charge _ _ _ _ := True.intro
  record _ _ _ _ := True.intro
  recordNew _ _ := True.intro

theorem holds_start (env : Env) (w : World) : (trivial env).contract.Holds (Server.start w) :=
  System.Contract.holds_start fun _ _ ↦ True.intro

/-- Every call of a run is one of those listed for its request. -/
theorem issues_of_mem_trace {w : World} {as : List Step} {e : Event}
    (he : e ∈ (system env).trace (Server.start w) as) :
    Issues env (fun _ ↦ True) e.request e.call := by
  obtain ⟨_, -, hissues, -⟩ := System.Contract.of_mem_trace (holds_start env w) as he
  exact hissues

end RowProperty

/-! ## What never changes in a row -/

/-- A view of the rows that no write changes, as long as what the write was computed from agreed with
the row about it. -/
structure RowConstant (env : Env) where
  View : Type
  view : TransactionStatus → View
  charge : ∀ {read row source chargeResult now row'}, view read = view row →
    row.update (attemptStatus read source chargeResult now) = some row' → view row' = view row
  record : ∀ {info row logs data eventKey now row'}, info.Fits → view info = view row →
    row.update (CallbackService.recordedStatus env info logs data eventKey now) = some row' →
      view row' = view row

namespace RowConstant

variable {env : Env} (V : RowConstant env)

/-- The row with the identifier of `row` is there, and looks like `row`. -/
def Known (w : World) (row : TransactionStatus) : Prop :=
  ∃ current, w.db.row? row.id = some current ∧ V.view current = V.view row

/-- No row has gone, and none looks different. -/
def Evolves (w w' : World) : Prop :=
  ∀ id row, w.db.row? id = some row →
    ∃ row', w'.db.row? id = some row' ∧ V.view row' = V.view row

variable {V}

theorem Known.mono {w w' : World} {row : TransactionStatus} (h : V.Known w row)
    (hw : V.Evolves w w') : V.Known w' row := by
  obtain ⟨current, hcurrent, hview⟩ := h
  obtain ⟨later, hlater, hsame⟩ := hw _ _ hcurrent
  exact ⟨later, hlater, hsame.trans hview⟩

theorem known_of_mem {w : World} {row : TransactionStatus} (h : row ∈ w.db.statuses) :
    V.Known w row := ⟨row, Db.row?_eq_some_iff.mpr ⟨h, rfl⟩, rfl⟩

variable (V)

theorem evolves_save {w : World} {q : Request} {obj : StatusObject} {db : Db} {uuid : ℕ → String}
    {saved : SavedStatus} (hq : Issues env (V.Known w) q (.statusSave obj))
    (hsave : w.db.save obj uuid = some (saved, db)) : V.Evolves w { w with db } := by
  intro id row hrow
  by_cases hid : obj.id = some id
  · obtain ⟨-, row', hupd, hrow'⟩ := Db.row?_save_self hsave hid hrow
    refine ⟨row', hrow', ?_⟩
    rcases RowProperty.issues_statusSave hq with ⟨user, product, type, tokenPackage, now, -, rfl⟩ |
      ⟨txId, read, source, type, productId, chargeResult, now, -, -, ⟨current, hcurrent, hview⟩, -,
        rfl⟩ |
      ⟨body, headers, info, logs, now, -, hfits, ⟨current, hcurrent, hview⟩, rfl⟩
    · exact absurd hid (by simp [newTransactionStatus])
    -- The row that was read is the row that is written, as it was at some earlier time.
    · obtain rfl : read.id = id := Option.some_inj.mp hid
      obtain rfl := Option.some_inj.mp (hcurrent.symm.trans hrow)
      exact V.charge hview.symm hupd
    · obtain rfl : info.id = id := Option.some_inj.mp hid
      obtain rfl := Option.some_inj.mp (hcurrent.symm.trans hrow)
      exact V.record hfits hview.symm hupd
  · exact ⟨row, Db.row?_save_of_ne hsave hid hrow, rfl⟩

/-- The rely-guarantee argument for a view: what was read may be out of date, but not in the
view. -/
def contract : System.Contract (system env) where
  inv _ := True
  evolves := V.Evolves
  rely w := Reads (V.Known w)
  guarantee w := Issues env (V.Known w)
  evolves_refl w _ row hrow := ⟨row, hrow, rfl⟩
  evolves_trans h h' id row hrow := by
    obtain ⟨row', hrow', hview⟩ := h id row hrow
    obtain ⟨row'', hrow'', hview'⟩ := h' id row' hrow'
    exact ⟨row'', hrow'', hview'.trans hview⟩
  rely_mono hw hr := Reads.mono (fun _ hrow ↦ hrow.mono hw) hr
  keeps := by
    intro w q c o _ hq
    refine ⟨True.intro, ?_⟩
    change V.Evolves w (perform env w c o).2
    by_cases hc : ∀ obj, c ≠ .statusSave obj
    · intro id row hrow
      rw [db_perform env hc]
      exact ⟨row, hrow, rfl⟩
    · push Not at hc
      obtain ⟨obj, rfl⟩ := hc
      rw [perform_statusSave]
      rcases hsave : saveOutcome w.db obj o with _ | ⟨saved, db⟩
      · exact fun id row hrow ↦ ⟨row, hrow, rfl⟩
      · exact V.evolves_save hq (saveOutcome_eq_some.mp hsave).2
  answers := by
    intro w q c o _ _
    apply reads_perform
    intro row hrow
    exact known_of_mem hrow
  background b _ := ⟨True.intro, fun _ row hrow ↦ ⟨row, (Move.db_apply _ b).symm ▸ hrow, rfl⟩⟩
  program w := follows_program env (V.Known w)

theorem view_of_mem_save {w : World} {q : Request} {obj : StatusObject} {db : Db}
    {uuid : ℕ → String} {saved : SavedStatus} (hq : Issues env (V.Known w) q (.statusSave obj))
    (hsave : w.db.save obj uuid = some (saved, db)) {row : TransactionStatus}
    (hrow : row ∈ db.statuses) :
    (∃ old, w.db.row? row.id = some old ∧ V.view row = V.view old) ∨
      ∃ user product type tokenPackage now, q = .pay user product type ∧
        obj = newTransactionStatus env tokenPackage user product type now ∧
        obj.insert row.id = some row ∧ saved.id = row.id := by
  rcases hold : w.db.row? row.id with _ | old
  · right
    have hnew : ∀ other ∈ w.db.statuses, other.id ≠ row.id := fun other hother hid ↦ by
      have hfound := Db.row?_eq_some_iff.mpr ⟨hother, hid⟩
      rw [hold] at hfound
      cases hfound
    obtain ⟨hstatus, -⟩ := Db.save_eq_some hsave
    -- A row that was not there has been inserted, and events are stored in rows that are there.
    rcases Db.writeStatus_cases hstatus with ⟨new, hins, hs, hid⟩ | ⟨old, new, -, hfound, hupd, hs⟩
    · obtain rfl : row = new := by
        rw [hs, List.mem_append, List.mem_singleton] at hrow
        exact hrow.resolve_left fun hin ↦ hnew row hin rfl
      have hid' : row.id = saved.id := (StatusObject.inserted hins).id
      rcases RowProperty.issues_statusSave hq with
        ⟨user, product, type, tokenPackage, now, hq, hobj⟩ |
        ⟨txId, read, source, type, productId, chargeResult, now, -, -, -, -, rfl⟩ |
        ⟨body, headers, info, logs, now, -, -, ⟨current, hcurrent, -⟩, rfl⟩
      · exact ⟨user, product, type, tokenPackage, now, hq, hobj, hid' ▸ hins, hid'.symm⟩
      · exact absurd hins (by rw [insert_attemptStatus]; simp)
      · have hinfo : info.id = row.id := by
          rcases hid with hid | hid
          · exact (Option.some_inj.mp hid).trans hid'.symm
          · exact absurd hid (by simp)
        rw [hinfo, hold] at hcurrent
        cases hcurrent
    · have hold' := Db.row?_eq_some_iff.mp hfound
      rw [hs] at hrow
      rcases Keyed.mem_replace hrow with rfl | ⟨hrow, -⟩
      · exact absurd (TransactionStatus.updated hupd).id.symm (hnew old hold'.1)
      · exact absurd rfl (hnew row hrow)
  · left
    obtain ⟨row', hrow', hview⟩ := V.evolves_save hq hsave row.id old hold
    obtain rfl := Option.some_inj.mp (hrow'.symm.trans (Db.row?_eq_some_iff.mpr ⟨hrow, rfl⟩))
    exact ⟨old, rfl, hview⟩

/-- The calls include the completed save of a purchase that made a row with this identifier, and the
row it made looked like this one. -/
def Bought (es : List Event) (row : TransactionStatus) : Prop :=
  ∃ (task : ℕ) (user : Option String) (product : ℚ) (type : String)
    (tokenPackage : TokenPackageResponse) (now now' : Date) (saved : SavedStatus)
    (first : TransactionStatus),
    ⟨task, .pay user product type,
        .statusSave (newTransactionStatus env tokenPackage user product type now),
        .ok (saved, now')⟩ ∈ es ∧ saved.id = row.id ∧
      (newTransactionStatus env tokenPackage user product type now).insert row.id = some first ∧
      V.view row = V.view first

variable {V} in
theorem Bought.of_view {es es' : List Event} {row old : TransactionStatus} (h : V.Bought es old)
    (hsub : es ⊆ es') (hid : old.id = row.id) (hview : V.view row = V.view old) :
    V.Bought es' row := by
  obtain ⟨task, user, product, type, tokenPackage, now, now', saved, first, hmem, hsaved, hins,
    hfirst⟩ := h
  rw [hid] at hsaved hins
  exact ⟨task, user, product, type, tokenPackage, now, now', saved, first, hsub hmem, hsaved, hins,
    hview.trans hfirst⟩

theorem bought_run {w : World} (hw : w.db = Db.empty) (as : List Step) :
    ∀ row ∈ ((system env).run (Server.start w) as).world.db.statuses,
      V.Bought ((system env).trace (Server.start w) as) row := by
  have hstart : V.contract.Holds (Server.start w) := System.Contract.holds_start True.intro
  refine (System.run_trace_inv (S := system env) (I := fun es p ↦ V.contract.Holds p ∧
    ∀ row ∈ p.world.db.statuses, V.Bought es row) (fun es p a hp ↦ ?_)
      ⟨hstart, fun row hrow ↦ absurd hrow (by rw [hw]; simp [Db.empty])⟩ as).2
  obtain ⟨hholds, hrows⟩ := hp
  refine ⟨System.Contract.holds_advance hholds a, fun row hrow ↦ ?_⟩
  have hsub := List.subset_append_left es ((system env).advance p a).1.toList
  rcases db_advance_cases env p a with ⟨hsame, -⟩ |
    ⟨i, q, obj, k, o, saved, db, hi, hsave, hcall, hworld⟩
  · rw [hsame] at hrow
    exact (hrows row hrow).of_view hsub rfl rfl
  · rw [hworld] at hrow
    have hissues : Issues env (V.Known p.world) q (.statusSave obj) := hholds.guarantee hi
    rcases V.view_of_mem_save hissues hsave hrow with ⟨old, hold, hview⟩ |
      ⟨user, product, type, tokenPackage, now, rfl, rfl, hins, hsaved⟩
    · obtain ⟨hmem, hid⟩ := Db.row?_eq_some_iff.mp hold
      exact (hrows old hmem).of_view hsub hid hview
    · rw [hcall]
      exact ⟨i, user, product, type, tokenPackage, now, o.now, saved, row,
        List.mem_append_right es (List.mem_singleton_self _), hsaved, hins, rfl⟩

/-- In every run, a row that is there stays there and keeps its view. -/
theorem row?_run {w : World} {as : List Step} {id : String} {row : TransactionStatus}
    (hrow : ((system env).run (Server.start w) as).world.db.row? id = some row)
    (bs : List Step) :
    ∃ row', ((system env).run ((system env).run (Server.start w) as) bs).world.db.row? id
      = some row' ∧ V.view row' = V.view row := by
  have hstart : V.contract.Holds (Server.start w) := System.Contract.holds_start True.intro
  have hholds := System.Contract.holds_run hstart as
  exact System.Contract.evolves_run hholds bs id row hrow

end RowConstant

end PaymentService
