import PaymentService.Attempts
import PaymentService.Delivery

/-!
# What a purchase fixes

`createPaymentTransaction` computes the amount, the tokens and the bonus of a transaction from a
package of the catalogue. Everything after that copies: a charge rewrites the metadata with two more
properties, an event rewrites the whole row as it was read. So a row keeps what was bought, in every
run, and the credit message is a rendering of it that can be read back.

The payment method is in there as what its column keeps of the text given to `pay`, and the currency
twice: as `THB` in the column that `charge` reads, and as that of the package in the metadata that the
webhook reads.
-/

namespace PaymentService

open Async CallbackService

variable {env : Env}

/-! ## Purchases -/

/-- A pay request, with the package it was answered with and the time. -/
structure Purchase where
  userRefId : String
  productId : ℚ
  paymentType : String
  tokenPackage : TokenPackageResponse
  createdAt : Date

namespace Purchase

/-- The bonus of the package and that of the payment type. -/
def tokenBonus (p : Purchase) : ℚ :=
  p.tokenPackage.bonus.getD 0 + paymentBonus p.tokenPackage p.paymentType

def request (p : Purchase) : Request := .pay (some p.userRefId) p.productId p.paymentType

/-- The object that is saved. -/
def status (env : Env) (p : Purchase) : StatusObject :=
  newTransactionStatus env p.tokenPackage (some p.userRefId) p.productId p.paymentType p.createdAt

/-- Among the calls is the purchase of the transaction: one task has got the package and has saved
the object made of it, and the identifier is what came back. -/
def Made (env : Env) (es : List Event) (txId : String) (p : Purchase) : Prop :=
  ∃ task saved now,
    ⟨task, p.request, .tokenPackagesGet p.productId, .ok (p.tokenPackage, p.createdAt)⟩ ∈ es ∧
      ⟨task, p.request, .statusSave (p.status env), .ok (saved, now)⟩ ∈ es ∧ saved.id = txId

/-- The row is what the purchase has computed, as far as the columns keep it: blanks beyond the length
of a column are cut off. -/
structure Stored (env : Env) (p : Purchase) (row : TransactionStatus) : Prop where
  userRefId : Sql.varchar 50 p.userRefId = some row.userRefId
  productId : row.productId = env.printNumber p.productId
  paymentType : Sql.varchar 50 p.paymentType = some row.paymentType
  amount : (row.amount : ℚ) = 100 * p.tokenPackage.price
  currency : row.currency = "THB"
  provider : row.provider = Providers.omise.value
  createdAt : row.createdAt = p.createdAt
  tokenName : row.metadata.prop "tokenName" = .str p.tokenPackage.token.name
  tokenSymbol : row.metadata.prop "tokenSymbol" = .str p.tokenPackage.token.symbol
  tokenAmount : row.metadata.prop "tokenAmount" = .num p.tokenPackage.no_of_coins
  tokenBonus : row.metadata.prop "tokenBonus" = .num p.tokenBonus
  packageCurrency : row.metadata.prop "currency" = .str (p.tokenPackage.currency.getD "")
  price : row.metadata.prop "price" = .num p.tokenPackage.price

end Purchase

/-! ## What stays -/

/-- The properties a purchase puts into the metadata. -/
def packageKeys : List String :=
  ["tokenName", "tokenSymbol", "tokenAmount", "tokenBonus", "currency", "price"]

/-- What a purchase fixes in a row; the values of `packageKeys` come last. -/
structure BoughtFields where
  userRefId : String
  productId : String
  paymentType : String
  amount : ℤ
  currency : String
  provider : String
  createdAt : Date
  tokenPackage : List Js

def TransactionStatus.bought (row : TransactionStatus) : BoughtFields where
  userRefId := row.userRefId
  productId := row.productId
  paymentType := row.paymentType
  amount := row.amount
  currency := row.currency
  provider := row.provider
  createdAt := row.createdAt
  tokenPackage := packageKeys.map row.metadata.prop

theorem bought_attemptRow {read row : TransactionStatus} (h : read.bought = row.bought)
    (source : String) (chargeResult : Charge) :
    (attemptRow read row source chargeResult).bought = row.bought := by
  have hkeys : ∀ key ∈ packageKeys, key ≠ "qr_code" ∧ key ≠ "card" ∧ 'e' ∈ key.toList := by decide
  have hmetadata : packageKeys.map (chargedMetadata read.metadata chargeResult).prop =
      packageKeys.map row.metadata.prop := by
    refine Eq.trans ?_ (congrArg BoughtFields.tokenPackage h)
    refine List.map_congr_left fun key hkey ↦ ?_
    obtain ⟨hqr, hcard, hletter⟩ := hkeys key hkey
    exact prop_chargedMetadata read.metadata chargeResult hqr hcard ⟨'e', hletter, by decide⟩
  simp only [TransactionStatus.bought, attemptRow, hmetadata]

/-- What was bought never changes. -/
def boughtOfRow (env : Env) : RowConstant env where
  View := BoughtFields
  view := TransactionStatus.bought
  charge := by
    intro read row source chargeResult now row' hview hupd
    obtain rfl := eq_of_update_attemptStatus hupd
    exact bought_attemptRow hview source chargeResult
  record := by
    intro info row logs data eventKey now row' hinfo hview hupd
    -- The row is overwritten by the one that was read, but for the event.
    obtain ⟨status, providerRefId, rfl⟩ := eq_of_update_recordedStatus hinfo hupd
    exact hview

theorem Purchase.Stored.of_bought {p : Purchase} {row row' : TransactionStatus}
    (h : p.Stored env row) (hbought : row'.bought = row.bought) : p.Stored env row' := by
  simp only [TransactionStatus.bought, packageKeys, BoughtFields.mk.injEq, List.map_cons,
    List.map_nil, List.cons.injEq, and_true] at hbought
  obtain ⟨huser, hproduct, htype, hamount, hcurrency, hprovider, hcreated, hname, hsymbol, htokens,
    hbonus, hpackage, hprice⟩ := hbought
  exact
    { userRefId := by rw [huser, h.userRefId]
      productId := hproduct.trans h.productId
      paymentType := by rw [htype, h.paymentType]
      amount := by rw [hamount, h.amount]
      currency := hcurrency.trans h.currency
      provider := hprovider.trans h.provider
      createdAt := hcreated.trans h.createdAt
      tokenName := hname.trans h.tokenName
      tokenSymbol := hsymbol.trans h.tokenSymbol
      tokenAmount := htokens.trans h.tokenAmount
      tokenBonus := hbonus.trans h.tokenBonus
      packageCurrency := hpackage.trans h.packageCurrency
      price := hprice.trans h.price }

theorem Purchase.Stored.nullish_metadata {p : Purchase} {row : TransactionStatus}
    (h : p.Stored env row) : row.metadata.nullish = false := by
  have hamount := h.tokenAmount
  cases hmetadata : row.metadata with
  | undefined => rw [hmetadata] at hamount; cases hamount
  | null => rw [hmetadata] at hamount; cases hamount
  | _ => rfl

theorem Purchase.stored_of_insert {p : Purchase} {id : String} {row : TransactionStatus}
    (h : (p.status env).insert id = some row) : p.Stored env row := by
  have hins := StatusObject.inserted h
  have hamount : (row.amount : ℚ) = p.tokenPackage.price * 100 :=
    toInteger_eq_some_iff.mp hins.amount
  have hmetadata : packageMetadata p.tokenPackage p.tokenBonus = row.metadata :=
    (jsonb_eq_some_iff.mp hins.metadata).2
  exact
    { userRefId := hins.userRefId
      productId := Sql.eq_of_varchar (env.word_printNumber p.productId).1 hins.productId
      paymentType := hins.paymentType
      amount := by rw [hamount, mul_comm]
      currency := Sql.eq_of_varchar (by decide) hins.currency
      provider := Sql.eq_of_varchar (by decide) hins.provider
      createdAt := (Option.some_inj.mp hins.createdAt).symm
      tokenName := by rw [← hmetadata]; rfl
      tokenSymbol := by rw [← hmetadata]; rfl
      tokenAmount := by rw [← hmetadata]; rfl
      tokenBonus := by rw [← hmetadata]; rfl
      packageCurrency := by rw [← hmetadata]; rfl
      price := by rw [← hmetadata]; rfl }

/-! ## In a run -/

section Run

variable {w : World} {as : List Step} {txId : String} {p : Purchase}

theorem made_of_mem (hw : w.db = Db.empty) {row : TransactionStatus}
    (hrow : row ∈ ((system env).run (Server.start w) as).world.db.statuses) :
    ∃ p : Purchase, p.Made env ((system env).trace (Server.start w) as) row.id := by
  obtain ⟨task, user, product, type, tokenPackage, now, now', saved, first, hmem, hsaved, hins, -⟩ :=
    (boughtOfRow env).bought_run hw as row hrow
  obtain ⟨es, es', htrace⟩ := List.append_of_mem hmem
  -- The package that was answered is the one the object was made of, as far as the object shows it.
  rcases (issued_of_trace htrace).statusSave_cases with
    ⟨user', product', type', tokenPackage', now'', hq, hobj, hanswer⟩ |
    ⟨_, _, _, _, _, _, _, _, hq, -⟩ | ⟨_, _, _, _, _, hq, -⟩
  · obtain ⟨rfl, rfl, rfl⟩ := Request.pay.inj hq
    rw [hobj] at hmem hins
    rcases user with _ | user
    · exact absurd hins (by simp [StatusObject.insert, newTransactionStatus, Column.insertRequired])
    · refine ⟨⟨user, product, type, tokenPackage', now''⟩, task, saved, now', ?_, hmem, hsaved⟩
      exact htrace ▸ List.mem_append_left _ hanswer
  · cases hq
  · cases hq

theorem Purchase.Made.stored (h : p.Made env ((system env).trace (Server.start w) as) txId) :
    ∃ row, ((system env).run (Server.start w) as).world.db.row? txId = some row ∧
      p.Stored env row := by
  obtain ⟨task, saved, now, -, hsaved, rfl⟩ := h
  obtain ⟨bs, a, cs, o, rfl, -, hanswer⟩ := answered_of_mem_trace hsaved rfl
  obtain ⟨⟨saved', db⟩, hsave, heq⟩ := Option.map_eq_some_iff.mp hanswer
  obtain ⟨rfl, hworld⟩ := Prod.mk.inj heq
  obtain ⟨first, hins, hfirst⟩ := Db.row?_save_new hsave rfl
  have hmade : ((system env).run (Server.start w) (bs ++ [a])).world.db.row? saved'.id
      = some first := by
    rw [System.run_append, System.run_cons, System.run_nil, ← hworld]
    exact hfirst
  obtain ⟨row, hrow, hbought⟩ := (boughtOfRow env).row?_run hmade cs
  rw [← System.run_append, List.append_assoc] at hrow
  exact ⟨row, hrow, (Purchase.stored_of_insert hins).of_bought hbought⟩

theorem Purchase.Made.stored_of_past
    (h : p.Made env ((system env).trace (Server.start w) as) txId) {bs cs : List Step}
    (has : as = bs ++ cs) {row : TransactionStatus}
    (hrow : ((system env).run (Server.start w) bs).world.db.row? txId = some row) :
    p.Stored env row := by
  obtain ⟨last, hlast, hstored⟩ := h.stored
  obtain ⟨row', hrow', hbought⟩ := (boughtOfRow env).row?_run hrow cs
  rw [← System.run_append, ← has] at hrow'
  obtain rfl := Option.some_inj.mp (hrow'.symm.trans hlast)
  exact hstored.of_bought hbought.symm

theorem made_of_past (hw : w.db = Db.empty) {bs cs : List Step} (has : as = bs ++ cs)
    {row : TransactionStatus}
    (hrow : ((system env).run (Server.start w) bs).world.db.row? txId = some row) :
    ∃ p : Purchase, p.Made env ((system env).trace (Server.start w) as) txId := by
  obtain ⟨row', hrow', -⟩ := (boughtOfRow env).row?_run hrow cs
  rw [← System.run_append, ← has] at hrow'
  obtain ⟨hmem, rfl⟩ := Db.row?_eq_some_iff.mp hrow'
  exact made_of_mem hw hmem

end Run

/-! ## The credit message -/

/-- The number that a text of decimal digits stands for. -/
def decimal? (text : List Char) : Option ℕ :=
  if text ≠ [] ∧ text.all Char.isDigit then some (Nat.ofDigitChars 10 text 0) else none

/-- Read the amount and the bonus off the name of a package. -/
def decodePackageName (name : String) : Option (ℕ × ℕ) :=
  match name.toList.splitOn '+' with
  | [amount] => do some (← decimal? amount, 0)
  | [amount, bonus] => do some (← decimal? amount, ← decimal? bonus)
  | _ => none

/-- The runtime prints the number in decimal digits. -/
def Env.PrintsDecimal (env : Env) (n : ℕ) : Prop := env.printNumber n = toString n

theorem decimal?_toString (n : ℕ) : decimal? (toString n).toList = some n := by
  have hdigits : (toString n).toList = Nat.toDigits 10 n := Nat.toList_repr
  rw [hdigits, decimal?, if_pos, Nat.ofDigitChars_ten_toDigits]
  refine ⟨Nat.toDigits_ne_nil, List.all_eq_true.mpr fun c hc ↦ ?_⟩
  exact Nat.isDigit_of_mem_toDigits (by decide) (by decide) hc

theorem plus_not_mem_toString (n : ℕ) : '+' ∉ (toString n).toList := by
  intro h
  have hdigits : (toString n).toList = Nat.toDigits 10 n := Nat.toList_repr
  rw [hdigits] at h
  have hdigit := Nat.isDigit_of_mem_toDigits (by decide) (by decide) h
  exact absurd hdigit (by decide)

theorem decode_packageName {amount bonus : ℕ} (hamount : env.PrintsDecimal amount)
    (hbonus : env.PrintsDecimal bonus) {name : String}
    (h : packageName env (.num amount) (.num bonus) = some name) :
    decodePackageName name = some (amount, bonus) := by
  unfold Env.PrintsDecimal at hamount hbonus
  unfold packageName at h
  split at h
  · simp only [Js.text_num, hamount, hbonus, bind, Option.bind_some, Option.some.injEq] at h
    have hlist : name.toList = (toString amount).toList ++ '+' :: (toString bonus).toList := by
      rw [← h]
      simp
    rw [decodePackageName, hlist,
      List.splitOn_append_cons_self_of_not_mem (plus_not_mem_toString amount),
      List.splitOn_eq_singleton (plus_not_mem_toString bonus)]
    simp only [decimal?_toString, bind, Option.bind_some]
  · next hfalsy =>
    -- Without a bonus the name is the amount alone.
    have hzero : bonus = 0 := by simpa [Js.truthy] using hfalsy
    rw [Js.toStringCall_num, hamount, Option.some.injEq] at h
    rw [decodePackageName, ← h, List.splitOn_eq_singleton (plus_not_mem_toString amount), hzero]
    simp only [decimal?_toString, bind, Option.bind_some]

/-- The message credits what was bought. The numbers are printed as the runtime prints them, and the
name of the package is unambiguous when they are natural numbers in decimal digits. -/
structure Purchase.Credited (env : Env) (p : Purchase) (msg : SqsMessageParams) : Prop where
  tokenSymbol : msg.tokenSymbol = .str p.tokenPackage.token.symbol
  coinValue : msg.coinValue = env.printNumber (p.tokenPackage.no_of_coins + p.tokenBonus)
  packageCoins : msg.attributes.metadata.coinValue = env.printNumber p.tokenPackage.no_of_coins
  bonusCoins : msg.attributes.metadata.bonusCoins = env.printNumber p.tokenBonus
  packageName : ∀ amount bonus : ℕ, p.tokenPackage.no_of_coins = amount → p.tokenBonus = bonus →
    env.PrintsDecimal amount → env.PrintsDecimal bonus →
      decodePackageName msg.attributes.metadata.packageName = some (amount, bonus)
  price : msg.attributes.metadata.price = env.printNumber p.tokenPackage.price
  currency : msg.attributes.metadata.currency = .str (p.tokenPackage.currency.getD "")

theorem Purchase.Stored.credited {p : Purchase} {info : TransactionStatus} (h : p.Stored env info)
    {data : Js} {msg : SqsMessageParams} (hdue : creditDue env info data = some msg) :
    p.Credited env msg := by
  obtain ⟨-, fields, hfields, hmsg⟩ := creditMessage_of_creditDue hdue
  obtain ⟨price, name, hprice, hname, rfl⟩ :=
    (packageFields_eq_some_iff h.nullish_metadata).mp hfields
  rw [h.price, Js.toStringCall_num, Option.some.injEq] at hprice
  rw [h.tokenAmount, h.tokenBonus] at hname
  simp only [creditMessage, h.tokenAmount, h.tokenBonus, h.tokenSymbol, h.packageCurrency,
    Js.addText_num, Js.textOrZero_num, bind, Option.bind_some, Option.some.injEq] at hmsg
  subst hmsg
  refine ⟨rfl, rfl, rfl, rfl, fun amount bonus hamount hbonus hprint hprint' ↦ ?_, hprice.symm, rfl⟩
  rw [hamount, hbonus] at hname
  exact decode_packageName hprint hprint' hname

theorem Purchase.Made.credited {w : World} {as : List Step} {e : Event} {msg : SqsMessageParams}
    {p : Purchase} (he : e ∈ (system env).trace (Server.start w) as)
    (hmsg : e.call = .sqsSendMessage msg)
    (h : p.Made env ((system env).trace (Server.start w) as) msg.attributes.transactionId) :
    p.Credited env msg := by
  obtain ⟨bs, cs, info, data, has, hinfo, hdue⟩ := row?_of_credit he hmsg
  rw [(transactionId_of_creditDue hdue).1] at h
  exact (h.stored_of_past has hinfo).credited hdue

/-- In every run of the freshly started service, whatever else the provider has charged, in which
requests interleave in any way and any call may fail: every transaction has been bought, what was
bought is in its row from then on, as far as the columns keep it, and its credit messages credit what
was bought. -/
theorem purchase_kept (env : Env) (provider : Provider) (as : List Step) :
    (∀ row ∈ ((system env).run (Server.start (World.fresh provider)) as).world.db.statuses,
        ∃ p : Purchase,
          p.Made env ((system env).trace (Server.start (World.fresh provider)) as) row.id) ∧
      (∀ (p : Purchase) (txId : String),
        p.Made env ((system env).trace (Server.start (World.fresh provider)) as) txId →
          ∀ bs, ∃ row,
            ((system env).run ((system env).run (Server.start (World.fresh provider)) as)
              bs).world.db.row? txId = some row ∧ p.Stored env row) ∧
      ∀ e ∈ (system env).trace (Server.start (World.fresh provider)) as, ∀ msg,
        e.call = .sqsSendMessage msg →
          (∃ p : Purchase,
            p.Made env ((system env).trace (Server.start (World.fresh provider)) as)
              msg.attributes.transactionId) ∧
          ∀ p : Purchase,
            p.Made env ((system env).trace (Server.start (World.fresh provider)) as)
              msg.attributes.transactionId → p.Credited env msg := by
  refine ⟨fun row hrow ↦ made_of_mem rfl hrow, fun p txId hmade bs ↦ ?_, fun e he msg hmsg ↦
    ⟨?_, fun p hmade ↦ hmade.credited he hmsg⟩⟩
  · obtain ⟨row, hrow, hstored⟩ := hmade.stored
    obtain ⟨row', hrow', hbought⟩ := (boughtOfRow env).row?_run hrow bs
    exact ⟨row', hrow', hstored.of_bought hbought⟩
  · obtain ⟨bs, cs, info, data, has, hinfo, hdue⟩ := row?_of_credit he hmsg
    rw [(transactionId_of_creditDue hdue).1]
    exact made_of_past rfl has hinfo

/-- The payment type that is asked for: one that is known, and blanks up to 51 characters. -/
def Shop.paddedType : String := String.ofList (PaymentTypeEnum.qr.value.toList.rightpad 51 ' ')

/-- The buyer orders with that payment type. -/
def Shop.paddedPurchase : List Step :=
  .spawn (.pay (some "buyer") 7 Shop.paddedType) :: Shop.resumes 0 "order" 2

/-- The request orders with a payment type. -/
def Request.paysBy (type : String) : Request → Bool
  | .pay _ _ paymentType => paymentType = type
  | _ => false

/-- The transaction was bought with the padded type, and its row has another: the column keeps 50 of
the characters. -/
theorem padded_type_cut :
    ∃ (p : Purchase) (row : TransactionStatus),
      p.Made Shop.platform ((system Shop.platform).trace (Server.start World.empty)
        Shop.paddedPurchase) Shop.orderId ∧
      (Shop.after Shop.paddedPurchase).world.db.row? Shop.orderId = some row ∧
      p.paymentType = Shop.paddedType ∧ row.paymentType ≠ p.paymentType := by
  have hrun : ((Shop.after Shop.paddedPurchase).world.db.row? Shop.orderId).any
        (·.paymentType.length = 50) = true ∧
      ((system Shop.platform).trace (Server.start World.empty) Shop.paddedPurchase).all
        (·.request.paysBy Shop.paddedType) = true := by decide +kernel
  obtain ⟨row, hfound, hlength⟩ := (Option.any_eq_true _ _).mp hrun.1
  obtain ⟨p, hmade⟩ := made_of_past rfl (List.append_nil Shop.paddedPurchase).symm hfound
  have htype : p.paymentType = Shop.paddedType := by
    obtain ⟨task, saved, now, hanswer, -⟩ := hmade
    exact of_decide_eq_true (List.all_eq_true.mp hrun.2 _ hanswer)
  refine ⟨p, row, hmade, hfound, htype, fun heq ↦ ?_⟩
  rw [heq, htype] at hlength
  exact absurd hlength (by decide +kernel)

/-! ## The currency -/

/-- The provider is asked for the price of the package in the currency of the package. -/
structure Purchase.Asked (p : Purchase) (request : ChargeRequest) : Prop where
  amount : (request.amount : ℚ) = p.tokenPackage.price * 100
  currency : p.tokenPackage.currency = some request.currency

/-- The message reports the price and the currency that the provider was asked for. -/
structure Reports (env : Env) (msg : SqsMessageParams) (request : ChargeRequest) : Prop where
  price : ∃ price : ℚ, msg.attributes.metadata.price = env.printNumber price ∧
    (request.amount : ℚ) = price * 100
  currency : msg.attributes.metadata.currency = .str request.currency

theorem Purchase.Stored.asked_iff {p : Purchase} {row : TransactionStatus} (h : p.Stored env row)
    (source : String) (type : Option String) (productId : Js) :
    p.Asked (chargeRequest env row source type productId) ↔
      p.tokenPackage.currency = some "THB" := by
  constructor
  · intro hasked
    rw [hasked.currency]
    exact congrArg some h.currency
  · intro hbaht
    refine ⟨by rw [mul_comm]; exact h.amount, ?_⟩
    rw [hbaht]
    exact congrArg some h.currency.symm

/-- A credit of what was bought reports what was asked for when the package is in `THB`. -/
theorem Purchase.Credited.reports_iff {p : Purchase} {row : TransactionStatus}
    {msg : SqsMessageParams} (h : p.Credited env msg) (hstored : p.Stored env row)
    (source : String) (type : Option String) (productId : Js) :
    Reports env msg (chargeRequest env row source type productId) ↔
      p.tokenPackage.currency = some "THB" := by
  constructor
  · intro hreports
    have hcurrency : Js.str (p.tokenPackage.currency.getD "") = .str row.currency :=
      h.currency.symm.trans hreports.currency
    rw [hstored.currency, Js.str.injEq] at hcurrency
    rcases hpackage : p.tokenPackage.currency with _ | currency
    · rw [hpackage] at hcurrency
      exact absurd hcurrency (by decide)
    · rw [hpackage] at hcurrency
      exact congrArg some hcurrency
  · intro hbaht
    refine ⟨⟨p.tokenPackage.price, h.price, by rw [mul_comm]; exact hstored.amount⟩, ?_⟩
    rw [h.currency, hbaht]
    exact congrArg Js.str hstored.currency.symm

/-- In every run, whatever else the provider has charged, a charge of what was bought is asked for at
the price and in the currency of the package exactly when the package is in `THB`; and exactly then
the credit messages report the price and the currency that were asked for. -/
theorem asked_iff_baht (env : Env) (provider : Provider) (as : List Step) :
    (∀ e ∈ (system env).trace (Server.start (World.fresh provider)) as, ∀ request,
        e.call = .chargesCreate request →
          (∃ p : Purchase, p.Made env ((system env).trace (Server.start (World.fresh provider)) as)
            request.metadata.txId) ∧
          ∀ p : Purchase, p.Made env ((system env).trace (Server.start (World.fresh provider)) as)
            request.metadata.txId → (p.Asked request ↔ p.tokenPackage.currency = some "THB")) ∧
      ∀ e ∈ (system env).trace (Server.start (World.fresh provider)) as, ∀ request,
        e.call = .chargesCreate request →
          ∀ e' ∈ (system env).trace (Server.start (World.fresh provider)) as, ∀ msg,
            e'.call = .sqsSendMessage msg →
              msg.attributes.transactionId = request.metadata.txId →
                ∀ p : Purchase,
                  p.Made env ((system env).trace (Server.start (World.fresh provider)) as)
                    request.metadata.txId →
                  (Reports env msg request ↔ p.tokenPackage.currency = some "THB") := by
  constructor
  · intro e he request hcreate
    obtain ⟨bs, cs, txId, row, source, type, productId, has, -, hrow, -, rfl, -, -⟩ :=
      row?_of_create he hcreate
    have hfound := (Db.find?_eq_some_iff.mp hrow).2
    refine ⟨made_of_past rfl has hfound, fun p hmade ↦ ?_⟩
    exact (hmade.stored_of_past has hfound).asked_iff source type productId
  · intro e he request hcreate e' he' msg hmsg hid p hmade
    obtain ⟨bs, cs, txId, row, source, type, productId, has, -, hrow, -, rfl, -, -⟩ :=
      row?_of_create he hcreate
    have hcredited : p.Credited env msg := Purchase.Made.credited he' hmsg (hid ▸ hmade)
    have hfound := (Db.find?_eq_some_iff.mp hrow).2
    exact hcredited.reports_iff (hmade.stored_of_past has hfound) source type productId

/-- A package in dollars is ordered, paid for and confirmed. -/
def Shop.paidInDollars : List Step :=
  .spawn (.pay (some "buyer") 7 PaymentTypeEnum.qr.value) ::
    (List.range 2).map (fun n ↦ .resume 0
      { choice ("order" ++ toString n) with
        tokenPackage := { tokenPackage with currency := some "USD" } }) ++
    payment 1 "src_1" "first" ++ [.env (.settle "first2" ChargeStatuses.successful.value)] ++
    delivery 2 .complete paidCharge "hook"

/-- Ten dollars are collected as ten baht, and credited as dollars. -/
theorem dollars_collected_as_baht :
    (Shop.after Shop.paidInDollars).world.provider.charges.map
        (fun charge ↦ (charge.metadata.txId, charge.amount, charge.currency)) =
      [(Shop.orderId, 1000, "THB")] ∧
    (Shop.after Shop.paidInDollars).world.queue.map
        (fun msg ↦ (msg.attributes.transactionId, msg.attributes.metadata.price)) =
      [(Shop.orderId, "10")] ∧
    (Shop.after Shop.paidInDollars).world.queue.all
        (fun msg ↦ msg.attributes.metadata.currency.isStr "USD") = true := by
  decide +kernel

end PaymentService
