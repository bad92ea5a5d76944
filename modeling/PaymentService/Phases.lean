import PaymentService.Async.Protocol
import PaymentService.Services.CallbackSteps
import PaymentService.Services.PaymentSteps

/-!
# The phases of a request

Every route goes through its calls in a fixed order. `protocol` is that order: which call may come in
a phase, the phase after its value, and `ended` after a rejection, since no route retries a call or
makes up for one. A lookup that finds no row ends an event as well.

The programs obey the protocol, so in every run the calls of each request are a word of it, however
the requests are interleaved. Its words are short, and so no request is suspended forever.
-/

namespace PaymentService

open Async

/-! ## The protocol -/

/-- What a request has to do next. -/
inductive Phase
  | catalogue | order
  | source | reading | charging | attempt
  | validation | lookup | recording | credit | notification
  | ended
  deriving DecidableEq

namespace Phase

/-- The call may come in the phase. A card token needs no lookup of its type, and a charge that has
failed earns no credit. -/
def admits : Phase → Call → Bool
  | catalogue, .tokenPackagesGet _ => true
  | order, .statusSave _ => true
  | source, .sourcesRetrieve _ => true
  | source, .statusFindOneByOrFail _ => true
  | reading, .statusFindOneByOrFail _ => true
  | charging, .chargesCreate _ => true
  | attempt, .statusSave _ => true
  | validation, .chargesRetrieve _ => true
  | lookup, .statusFindOne _ => true
  | recording, .statusSave _ => true
  | credit, .sqsSendMessage _ => true
  | credit, .notificationPost _ => true
  | notification, .notificationPost _ => true
  | _, _ => false

/-- The phase after the value of a call. -/
def after : Phase → Call → Phase
  | catalogue, _ => order
  | source, .sourcesRetrieve _ => reading
  | source, _ => charging
  | reading, _ => charging
  | charging, _ => attempt
  | validation, _ => lookup
  | lookup, _ => recording
  | recording, _ => credit
  | credit, .sqsSendMessage _ => notification
  | _, _ => ended

/-- How many calls there can still be. -/
def rank : Phase → ℕ
  | catalogue => 2
  | order => 1
  | source => 4
  | reading => 3
  | charging => 2
  | attempt => 1
  | validation => 5
  | lookup => 4
  | recording => 3
  | credit => 2
  | notification => 1
  | ended => 0

theorem rank_le (s : Phase) : s.rank ≤ 5 := by
  cases s <;> decide

end Phase

/-- The call has looked for a row, and there is none. -/
def Call.findsNothing : (c : Call) → c.Reply → Bool
  | .statusFindOne _, (none, _) => true
  | _, _ => false

/-- The phase after an answered call, when the call may come. -/
def protocol : Protocol Call Call.Reply JsError Phase
  | s, c, .ok value =>
    if s.admits c then some (if c.findsNothing value then .ended else s.after c) else none
  | s, c, .error _ => if s.admits c then some .ended else none

/-- The phase in which a request arrives. -/
def Request.start : Request → Phase
  | .pay _ _ _ => .catalogue
  | .charge _ _ => .source
  | .omiseCallback _ _ => .validation

theorem Phase.rank_after_lt {s : Phase} {c : Call} (h : s.admits c = true) :
    (s.after c).rank < s.rank := by
  unfold Phase.admits at h
  split at h
  case h_14 => cases h
  all_goals simp [Phase.after, Phase.rank]

theorem ranked_protocol : protocol.Ranked Phase.rank := by
  intro s c r s' h
  by_cases hadmits : s.admits c = true
  · have hafter := Phase.rank_after_lt hadmits
    have hended : Phase.ended.rank < s.rank := Nat.lt_of_le_of_lt (Nat.zero_le _) hafter
    match r with
    | .error e =>
      obtain rfl : Phase.ended = s' := by simpa [protocol, hadmits] using h
      exact hended
    | .ok value =>
      obtain rfl : (if c.findsNothing value then Phase.ended else s.after c) = s' := by
        simpa [protocol, hadmits] using h
      split
      · exact hended
      · exact hafter
  · match r with
    | .error e => simp [protocol, hadmits] at h
    | .ok value => simp [protocol, hadmits] at h

/-- A call that may come, whose rejection ends the program, and whose value is followed by what may
come in the next phase. -/
theorem obeys_await {α : Type} {s : Phase} {c : Call} (hs : s.admits c = true)
    {k : Except JsError c.Reply → Program α} (herror : ∀ e, (k (.error e)).Finished)
    (hok : ∀ value, if c.findsNothing value then (k (.ok value)).Finished
      else Obeys protocol (s.after c) (k (.ok value))) :
    Obeys protocol s (await c k) := by
  refine Obeys.await (fun e ↦ ⟨if_pos hs, herror e⟩) fun value ↦ ⟨_, if_pos hs, ?_⟩
  have hnext := hok value
  split at hnext
  · next hnothing =>
    rw [if_pos hnothing]
    exact hnext.obeys
  · next hfound =>
    rw [if_neg hfound]
    exact hnext

/-! ## The programs obey -/

section Obeys

variable {env : Env}

private theorem obeys_notified (status : String) (msg : SqsMessageParams) {s : Phase}
    (hs : ∀ payload, s.admits (.notificationPost payload) = true) :
    Obeys protocol s (CallbackService.notified env status msg) := by
  rcases CallbackService.notified_cases env status msg with heq | ⟨payload, -, heq⟩
  · rw [heq]
    trivial
  · rw [heq]
    exact obeys_await (hs payload) (fun _ ↦ trivial) fun _ ↦ trivial

private theorem obeys_announced (info : TransactionStatus) (data : Js) :
    Obeys protocol .credit (CallbackService.announced env info data) := by
  rcases hdue : CallbackService.creditDue env info data with _ | msg
  · rcases CallbackService.announced_of_no_credit hdue with heq | ⟨payload, -, heq⟩
    · rw [heq]
      trivial
    · rw [heq]
      exact obeys_await rfl (fun _ ↦ trivial) fun _ ↦ trivial
  · rw [CallbackService.announced_of_creditDue hdue]
    exact obeys_await rfl (fun _ ↦ trivial) fun _ ↦ obeys_notified _ msg fun _ ↦ rfl

private theorem obeys_handleOmiseCallBack (body : Js) (headers : Headers) :
    Obeys protocol .validation (CallbackController.handleOmiseCallBack env body headers) := by
  refine CallbackController.handleOmiseCallBack_elim trivial (fun _ ↦ trivial) ?_
  refine obeys_await rfl (fun _ ↦ trivial) fun _ ↦ ?_
  change Obeys protocol .lookup (CallbackService.createTransactionLog env _ _)
  refine CallbackService.createTransactionLog_elim trivial fun sourceId _ ↦ ?_
  refine obeys_await rfl (fun _ ↦ trivial) fun found ↦ ?_
  match found with
  | (none, now) => trivial
  | (some (info, logs), now) =>
    exact obeys_await rfl (fun _ ↦ trivial) fun _ ↦ obeys_announced info _

private theorem obeys_chargeTyped (txId source : String) (type : Option String) {s : Phase}
    (hs : s.admits (.statusFindOneByOrFail txId) = true)
    (hafter : s.after (.statusFindOneByOrFail txId) = .charging) :
    Obeys protocol s (chargeTyped env txId source type) := by
  unfold chargeTyped
  split
  · refine obeys_await hs (fun _ ↦ trivial) fun found ↦ ?_
    obtain ⟨row, now⟩ := found
    change Obeys protocol (s.after _) (chargeRow env source type row)
    rw [hafter]
    unfold chargeRow
    split
    · refine obeys_await rfl (fun _ ↦ trivial) fun _ ↦ ?_
      exact obeys_await rfl (fun _ ↦ trivial) fun _ ↦ trivial
    · trivial
  · trivial

private theorem obeys_charge (txId source : String) :
    Obeys protocol .source (charge env txId source) := by
  rw [charge_eq]
  rcases findPaymentTypeFromSourceId_cases source with ⟨type, heq⟩ | heq
  · rw [heq]
    exact obeys_chargeTyped txId source type rfl rfl
  · -- A lookup that is rejected leaves no type, and without a type nothing is charged.
    rw [heq, await_bind]
    refine obeys_await rfl (fun _ ↦ trivial) fun found ↦ ?_
    exact obeys_chargeTyped txId source (some found.1) (s := .reading) rfl rfl

private theorem obeys_pay (userRefId : Option String) (productId : ℚ) (paymentType : String) :
    Obeys protocol .catalogue (createPaymentTransaction env userRefId productId paymentType) := by
  rw [createPaymentTransaction_eq]
  refine obeys_await rfl (fun _ ↦ trivial) fun found ↦ ?_
  exact obeys_await rfl (fun _ ↦ trivial) fun _ ↦ trivial

theorem obeys_program (env : Env) (q : Request) : Obeys protocol q.start (program env q) := by
  match q with
  | .pay userRefId productId paymentType => exact (obeys_pay userRefId productId paymentType).bind_done _
  | .charge txId source => exact (obeys_charge txId source).bind_done _
  | .omiseCallback body headers => exact (obeys_handleOmiseCallBack body headers).bind_done _

end Obeys

/-! ## In every run -/

/-- The calls of each request are a word of the protocol, and there are no more of them than the rank
of the phase in which it arrived. -/
theorem calls_in_order (env : Env) (w : World) (as : List Step) (i : ℕ)
    (t : Task Call Call.Reply JsError Response Request)
    (ht : ((system env).run (Server.start w) as).tasks[i]? = some t) :
    ∃ s, protocol.follow t.request.start
        (System.callsOf i ((system env).trace (Server.start w) as)) = some s ∧
      (System.callsOf i ((system env).trace (Server.start w) as)).length + s.rank ≤
        t.request.start.rank := by
  have hconducts := System.conducts_run (S := system env) (obeys_program env) w as
  obtain ⟨s, hs, -⟩ := hconducts.1 i t ht
  exact ⟨s, hs, protocol.length_le_rank ranked_protocol hs⟩

/-- Two purchases arrive; the catalogue does not answer the first, and then the second goes through. -/
def Shop.refused : List Step :=
  [.spawn (.pay (some "buyer") 7 PaymentTypeEnum.qr.value),
    .spawn (.pay (some "other") 7 PaymentTypeEnum.qr.value),
    .resume 0 { Shop.choice "down" with fails := true }, .resume 1 (Shop.choice "first"),
    .resume 1 (Shop.choice "second")]

/-- The calls of the second purchase, between which nothing of the first one comes. -/
theorem calls_of_refused :
    ∃ s, protocol.follow .catalogue
        (System.callsOf 1 ((system Shop.platform).trace (Server.start World.empty) Shop.refused)) =
          some s ∧
      (System.callsOf 1
        ((system Shop.platform).trace (Server.start World.empty) Shop.refused)).length + s.rank ≤
          2 :=
  calls_in_order Shop.platform World.empty Shop.refused 1
    ⟨.pay (some "other") 7 PaymentTypeEnum.qr.value, _⟩ rfl

private theorem eq_nil_of_follow_ended {calls : List ((c : Call) × Except JsError c.Reply)} {s : Phase}
    (h : protocol.follow .ended calls = some s) : calls = [] := by
  have hle := protocol.length_le_rank ranked_protocol h
  exact List.length_eq_zero_iff.mp (Nat.le_zero.mp (Nat.le_of_add_right_le hle))

/-- In every run, a rejected call is the last one of its request: no route retries a call, goes on
without it or makes up for the calls before it. -/
theorem rejection_is_last (env : Env) (w : World) (as : List Step) (es es' : List Event) (e : Event)
    (error : JsError) (htrace : (system env).trace (Server.start w) as = es ++ e :: es')
    (hrejected : e.reply = .error error) : ∀ e' ∈ es', e'.task ≠ e.task := by
  obtain ⟨i, q, c, r⟩ := e
  obtain rfl : r = .error error := hrejected
  obtain ⟨htasks, hnone⟩ := System.conducts_run (S := system env) (obeys_program env) w as
  have hcalls : System.callsOf i ((system env).trace (Server.start w) as) =
      System.callsOf i es ++ ⟨c, .error error⟩ :: System.callsOf i es' := by
    rw [htrace, System.callsOf_append]
    exact congrArg _ (System.callsOf_cons_self rfl es')
  rcases Nat.lt_or_ge i ((system env).run (Server.start w) as).tasks.length with hlt | hge
  · obtain ⟨s, hs, -⟩ := htasks i _ (List.getElem?_eq_getElem hlt)
    rw [hcalls] at hs
    obtain ⟨m, -, hm⟩ := protocol.follow_split hs
    obtain ⟨m', hstep, hrest⟩ := Option.bind_eq_some_iff.mp hm
    -- The rejection leads to the end of the request.
    obtain rfl : m' = .ended := by
      simp only [protocol] at hstep
      split at hstep
      · exact (Option.some_inj.mp hstep).symm
      · cases hstep
    have hnil := eq_nil_of_follow_ended hrest
    intro e' he' htask
    have hmem : ⟨e'.call, e'.reply⟩ ∈ System.callsOf i es' :=
      List.mem_map_of_mem (List.mem_filter.mpr ⟨he', by simpa using htask⟩)
    rw [hnil] at hmem
    exact absurd hmem List.not_mem_nil
  · have hempty := hnone i hge
    rw [hcalls] at hempty
    exact absurd hempty (by simp)

/-- After its rejection the first purchase makes no call. -/
theorem rejection_of_refused :
    ¬∃ e' ∈ ((system Shop.platform).trace (Server.start World.empty) Shop.refused).tail,
      e'.task = 0 := by
  rintro ⟨e', he', htask⟩
  exact rejection_is_last Shop.platform World.empty Shop.refused []
    ((system Shop.platform).trace (Server.start World.empty) Shop.refused).tail
    ⟨0, .pay (some "buyer") 7 PaymentTypeEnum.qr.value, .tokenPackagesGet 7, .error .rejected⟩
    .rejected rfl rfl e' he' htask

/-- A request that arrives at any moment of any run has finished after as many turns as the rank of
its first phase — two for a purchase, four for a charge, five for an event — whatever happens in
between. -/
theorem request_finishes (env : Env) (w : World) (as : List Step) (q : Request) (bs : List Step)
    (hturns : q.start.rank ≤
      System.turnsOf ((system env).run (Server.start w) as).tasks.length bs) :
    ∃ rest, ((system env).run (Server.start w) (as ++ .spawn q :: bs)).tasks[
        ((system env).run (Server.start w) as).tasks.length]? = some ⟨q, rest⟩ ∧
      rest.Finished := by
  have hrejection : Nonempty JsError := ⟨.rejected⟩
  rw [System.run_append, System.run_cons, System.advance_spawn]
  refine System.finished_of_turns ranked_protocol (t := program env q) ?_ (obeys_program env q) hturns
  rw [List.getElem?_append_right (Nat.le_refl _), Nat.sub_self]
  rfl

/-- A third purchase finishes in two turns, whatever else arrives between them. -/
theorem purchase_finishes :
    ∃ rest, ((system Shop.platform).run (Server.start World.empty)
        (Shop.refused ++ .spawn (.pay none 7 "card") ::
          [.resume 2 (Shop.choice "third"), .spawn (.charge (Shop.uuid "second" 0) "src_1"),
            .resume 3 (Shop.choice "fourth"), .resume 2 (Shop.choice "fifth")])).tasks[2]? =
        some ⟨.pay none 7 "card", rest⟩ ∧ rest.Finished :=
  request_finishes Shop.platform World.empty Shop.refused (.pay none 7 "card")
    [.resume 2 (Shop.choice "third"), .spawn (.charge (Shop.uuid "second" 0) "src_1"),
      .resume 3 (Shop.choice "fourth"), .resume 2 (Shop.choice "fifth")] (by decide)

end PaymentService
