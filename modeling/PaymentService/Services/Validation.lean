import PaymentService.Services.CallbackSteps

/-!
# Which events are accepted

The checks of `validateChargeEvent` overlap: a key is looked for `charge` and compared with all known
keys, an agent is looked for `omise` and compared with the configured one. Only the comparisons
decide. What they accept is described here without the order of the checks, and whatever the provider
answers, the event is accepted, malformed or about an unknown charge.
-/

namespace PaymentService

open Async

variable {env : Env} {chargeId requestedAgent eventKey : Option String}

/-- The event names a charge, comes from the configured version of the provider, and has a known
key. -/
structure WellFormedEvent (env : Env) (chargeId requestedAgent eventKey : Option String) : Prop where
  chargeId : ∃ id, chargeId = some id ∧ id ≠ ""
  agent : ∃ agent, requestedAgent = some agent ∧ env.toLowerCase agent =
    Providers.omise.value ++ "/" ++ NotificationService.configText env.config.omiseVersion
  eventKey : ∃ key, eventKey = some key ∧ env.toLowerCase key ∈ OmiseChargeEvents.values

theorem truthy_argument {text : Option String} :
    (argument text).truthy = true ↔ ∃ s, text = some s ∧ s ≠ "" := by
  cases text <;> simp [argument, Js.truthy]

theorem ne_empty_of_toLowerCase (hlower : env.toLowerCase "" = "") {text : String}
    (h : env.toLowerCase text ≠ "") : text ≠ "" := by
  rintro rfl
  exact h hlower

theorem eventAccepted_iff (hlower : env.toLowerCase "" = "") :
    EventAccepted env (argument chargeId) requestedAgent (argument eventKey) ↔
      WellFormedEvent env chargeId requestedAgent eventKey := by
  constructor
  · rintro ⟨hid, ⟨agent, hagent, -, hname⟩, ⟨key, hkey, -, hvalue⟩⟩
    refine ⟨truthy_argument.mp hid, ⟨agent, hagent, hname⟩, ⟨key, ?_, hvalue⟩⟩
    cases eventKey with
    | none => cases hkey
    | some key' => exact congrArg some (Js.str.inj hkey)
  · rintro ⟨hid, ⟨agent, hagent, hname⟩, ⟨key, rfl, hvalue⟩⟩
    refine ⟨truthy_argument.mpr hid, ⟨agent, hagent, ?_, hname⟩, ⟨key, rfl, ?_, hvalue⟩⟩
    · refine ne_empty_of_toLowerCase hlower fun hempty ↦ ?_
      have hlength := congrArg String.length (hname.symm.trans hempty)
      rw [String.length_append, String.length_append] at hlength
      exact absurd hlength (by simp [Providers.value])
    · refine ne_empty_of_toLowerCase hlower fun hempty ↦ ?_
      rw [hempty] at hvalue
      exact absurd hvalue (by decide)

/-- `validateChargeEvent` with arguments that may be missing. -/
abbrev validateArguments (env : Env) (chargeId requestedAgent eventKey : Option String) :
    Program Unit :=
  CallbackService.validateChargeEvent env (argument chargeId) requestedAgent (argument eventKey)

theorem validateArguments_cases (hlower : env.toLowerCase "" = "") :
    (WellFormedEvent env chargeId requestedAgent eventKey ∧ ∃ message,
        validateArguments env chargeId requestedAgent eventKey =
          await (Call.chargesRetrieve (argument chargeId)) fun
            | .ok _ => done ()
            | .error _ => fail (.httpException message 404)) ∨
      ¬WellFormedEvent env chargeId requestedAgent eventKey ∧ ∃ message,
        validateArguments env chargeId requestedAgent eventKey =
          fail (.httpException message 400) := by
  by_cases h : WellFormedEvent env chargeId requestedAgent eventKey
  · obtain ⟨id, rfl, -⟩ := h.chargeId
    refine Or.inl ⟨h, "Cannot find charge: " ++ id, ?_⟩
    rw [validateArguments, validateChargeEvent_of_accepted ((eventAccepted_iff hlower).mpr h)]
    simp only [chargeNotFound, argument, Js.text_str]
    congr 1
    funext r
    cases r <;> rfl
  · refine Or.inr ⟨h, ?_⟩
    obtain ⟨e, heq, ⟨message, rfl⟩ | hother⟩ :=
      validateChargeEvent_of_not_accepted (mt (eventAccepted_iff hlower).mp h)
    · exact ⟨message, heq⟩
    · exact absurd rfl (hother eventKey)

/-- What the comparisons accept passes the searches. -/
theorem includes_of_comparison (env : Env) :
    (∀ agent, env.toLowerCase agent = Providers.omise.value ++ "/" ++
        NotificationService.configText env.config.omiseVersion →
          Js.includes (env.toLowerCase agent) Providers.omise.value = true) ∧
      ∀ key, env.toLowerCase key ∈ OmiseChargeEvents.values →
        Js.includes (env.toLowerCase key) OmiseCallbackEvents.charge.value = true := by
  refine ⟨fun agent hname ↦ ?_, fun key hvalue ↦ includes_of_values hvalue⟩
  rw [hname, String.append_assoc]
  exact includes_append _ _

/-- Whatever the provider answers: the event is accepted when it is well formed and the provider finds
the charge; it is refused as malformed when it is not well formed, and as unknown when it is well
formed and the provider does not find the charge; and the provider is asked, once, when the event is
well formed. -/
theorem validateChargeEvent_outcome (hlower : env.toLowerCase "" = "") {σ ω : Type}
    (h : Handler Call Call.Reply JsError σ ω) (chargeId requestedAgent eventKey : Option String)
    (o : ℕ → ω) (w : σ) :
    ((Async.run h (validateArguments env chargeId requestedAgent eventKey) o w).1 = .ok () ↔
        WellFormedEvent env chargeId requestedAgent eventKey ∧
          ∃ charge, (h w (Call.chargesRetrieve (argument chargeId)) (o 0)).1 = .ok charge) ∧
      ((∃ message, (Async.run h (validateArguments env chargeId requestedAgent eventKey) o w).1 =
          .error (.httpException message 400)) ↔
        ¬WellFormedEvent env chargeId requestedAgent eventKey) ∧
      ((∃ message, (Async.run h (validateArguments env chargeId requestedAgent eventKey) o w).1 =
          .error (.httpException message 404)) ↔
        WellFormedEvent env chargeId requestedAgent eventKey ∧
          ∃ e, (h w (Call.chargesRetrieve (argument chargeId)) (o 0)).1 = .error e) ∧
      (WellFormedEvent env chargeId requestedAgent eventKey →
        (performed h (validateArguments env chargeId requestedAgent eventKey) o w).map Sigma.fst =
          [Call.chargesRetrieve (argument chargeId)]) ∧
      (¬WellFormedEvent env chargeId requestedAgent eventKey →
        performed h (validateArguments env chargeId requestedAgent eventKey) o w = []) ∧
      (∀ agent, env.toLowerCase agent = Providers.omise.value ++ "/" ++
          NotificationService.configText env.config.omiseVersion →
        Js.includes (env.toLowerCase agent) Providers.omise.value = true) ∧
      ∀ key, env.toLowerCase key ∈ OmiseChargeEvents.values →
        Js.includes (env.toLowerCase key) OmiseCallbackEvents.charge.value = true := by
  rcases validateArguments_cases hlower with ⟨hwell, message, heq⟩ | ⟨hnot, message, heq⟩
  · rw [heq, run_await, performed]
    rcases hr : (h w (Call.chargesRetrieve (argument chargeId)) (o 0)).1 with e | charge
    · refine ⟨iff_of_false (fun hrun ↦ by cases hrun) ?_, iff_of_false ?_ (not_not_intro hwell),
        iff_of_true ⟨message, rfl⟩ ⟨hwell, e, rfl⟩, fun _ ↦ rfl, fun hnot ↦ absurd hwell hnot,
        includes_of_comparison env⟩
      · rintro ⟨-, charge, hcharge⟩
        cases hcharge
      · rintro ⟨other, hrun⟩
        cases hrun
    · refine ⟨iff_of_true rfl ⟨hwell, charge, rfl⟩, iff_of_false ?_ (not_not_intro hwell),
        iff_of_false ?_ ?_, fun _ ↦ rfl, fun hnot ↦ absurd hwell hnot, includes_of_comparison env⟩
      · rintro ⟨other, hrun⟩
        cases hrun
      · rintro ⟨other, hrun⟩
        cases hrun
      · rintro ⟨-, e, he⟩
        cases he
  · rw [heq]
    refine ⟨iff_of_false (fun hrun ↦ by cases hrun) fun hboth ↦ hnot hboth.1,
      iff_of_true ⟨message, rfl⟩ hnot, iff_of_false ?_ fun hboth ↦ hnot hboth.1,
      fun hwell ↦ absurd hwell hnot, fun _ ↦ rfl, includes_of_comparison env⟩
    rintro ⟨other, hrun⟩
    cases hrun

/-- A well-formed event about a charge that the provider does not have. -/
theorem unknown_charge_refused :
    ∃ message, (Async.run (perform Shop.platform) (validateArguments Shop.platform (some "ch_1")
      (some "Omise/2019-05-29") (some "Charge.complete")) (fun _ ↦ {}) World.empty).1 =
        .error (.httpException message 404) :=
  (validateChargeEvent_outcome (by decide +kernel) (perform Shop.platform) (some "ch_1")
    (some "Omise/2019-05-29") (some "Charge.complete") (fun _ ↦ {})
    World.empty).2.2.1.mpr
      ⟨⟨⟨"ch_1", rfl, by decide⟩, ⟨"Omise/2019-05-29", rfl, by decide +kernel⟩,
        ⟨"Charge.complete", rfl, by decide +kernel⟩⟩, .rejected, rfl⟩

end PaymentService
