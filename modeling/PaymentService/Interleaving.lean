import PaymentService.Async.Serial
import PaymentService.Log
import Mathlib.Data.List.Triplewise

/-!
# Two events at once

The webhook reads a row with its log and later writes both back. Two calls are dependent when both
are about the tables and one of them is a completed save; as long as no completed save of one event
comes between the lookup and the save of the other, two events that are handled at the same time
leave what they leave one after the other. When both lookups come before both saves, the second save
writes back the log of before the first, and the entry of the first is lost.
-/

namespace PaymentService

open Async CallbackService

variable (env : Env)

/-! ## Which calls depend on each other -/

theorem perform_congr {w w' : World} (hdb : w.db = w'.db) (hprovider : w.provider = w'.provider)
    (c : Call) (o : Choice) :
    (perform env w c o).1 = (perform env w' c o).1 ∧
      (perform env w c o).2.db = (perform env w' c o).2.db ∧
      (perform env w c o).2.provider = (perform env w' c o).2.provider := by
  obtain ⟨db, provider, queue, pushes⟩ := w
  obtain ⟨db', provider', queue', pushes'⟩ := w'
  obtain rfl : db = db' := hdb
  obtain rfl : provider = provider' := hprovider
  unfold perform
  rcases o.fails with _ | _
  · cases c with
    | statusSave obj =>
      simp only [answer]
      rcases db.save obj o.uuid with _ | ⟨saved, db'⟩ <;> simp
    | statusFindOneByOrFail id =>
      simp only [answer]
      rcases db.find? id with _ | row <;> simp
    | statusFindOne source =>
      simp only [answer]
      split_ifs <;> simp
    | chargesCreate request =>
      simp only [answer]
      split_ifs <;> simp
    | chargesRetrieve id =>
      simp only [answer]
      rcases (Js.text env.printNumber id).bind provider.charge? with _ | charge <;> simp
    | _ => simp [answer]
  · simp

/-- No answer depends on the messages that have been sent. -/
def indistinct : Congruence (system env).handler where
  rel w w' := w.db = w'.db ∧ w.provider = w'.provider
  refl _ := ⟨rfl, rfl⟩
  trans h h' := ⟨h.1.trans h'.1, h.2.trans h'.2⟩
  step c o h := perform_congr env h.1 h.2 c o

/-- The call creates a charge. -/
def Call.createsCharge : Call → Bool
  | .chargesCreate _ => true
  | _ => false

/-- Neither call is a completed save when the other is about the tables, and neither creates a charge
when the other is about charges. -/
structure Independent (d : Call) (rd : Except JsError d.Reply) (c : Call)
    (rc : Except JsError c.Reply) : Prop where
  saved : completesSave d rd = true → c.readsStatus = false ∧ c.savesStatus = false
  saves : completesSave c rc = true → d.readsStatus = false ∧ d.savesStatus = false
  created : d.createsCharge = true → c.asksProvider = false
  creates : c.createsCharge = true → d.asksProvider = false

variable {env}

theorem rel_of_quiet {w : World} {c : Call} {o : Choice}
    (hsave : completesSave c (perform env w c o).1 = false) (hcreate : c.createsCharge = false) :
    (indistinct env).rel (perform env w c o).2 w := by
  constructor
  · by_cases hc : ∀ obj, c ≠ .statusSave obj
    · exact db_perform env hc o
    · push Not at hc
      obtain ⟨obj, rfl⟩ := hc
      rw [perform_statusSave] at hsave ⊢
      rcases houtcome : saveOutcome w.db obj o with _ | ⟨saved, db⟩
      · rfl
      · rw [houtcome] at hsave
        cases hsave
  · refine provider_perform env (fun request heq ↦ ?_) o
    rw [heq] at hcreate
    exact absurd hcreate (by simp [Call.createsCharge])

/-- A completed save leaves new tables, and would have done so in any state with the same. -/
theorem perform_of_completesSave {w : World} {c : Call} {o : Choice}
    (h : completesSave c (perform env w c o).1 = true) :
    (perform env w c o).2 = { w with db := (perform env w c o).2.db } ∧
      ∀ v : World, v.db = w.db →
        perform env v c o =
          ((perform env w c o).1, { v with db := (perform env w c o).2.db }) := by
  cases c with
  | statusSave obj =>
    have hv : ∀ v : World, v.db = w.db → perform env v (.statusSave obj) o =
        ((perform env w (.statusSave obj) o).1,
          { v with db := (perform env w (.statusSave obj) o).2.db }) := by
      intro v hdb
      rw [perform_statusSave, perform_statusSave, hdb]
      rcases saveOutcome w.db obj o with _ | ⟨saved, db⟩
      · rw [← hdb]
      · rfl
    exact ⟨congrArg Prod.snd (hv w rfl), hv⟩
  | _ => exact absurd h (by simp [completesSave])

variable (env) in
theorem perform_of_createsCharge {c : Call} (h : c.createsCharge = true) (w : World) (o : Choice) :
    (perform env w c o).2 = { w with provider := (perform env w c o).2.provider } ∧
      ∀ v : World, v.provider = w.provider →
        perform env v c o =
          ((perform env w c o).1, { v with provider := (perform env w c o).2.provider }) := by
  cases c with
  | chargesCreate request =>
    have hv : ∀ v : World, v.provider = w.provider → perform env v (.chargesCreate request) o =
        ((perform env w (.chargesCreate request) o).1,
          { v with provider := (perform env w (.chargesCreate request) o).2.provider }) := by
      intro v hprovider
      rw [perform_chargesCreate, perform_chargesCreate, hprovider]
      split
      · rfl
      · rw [← hprovider]
    exact ⟨congrArg Prod.snd (hv w rfl), hv⟩
  | _ => exact absurd h (by simp [Call.createsCharge])

variable (env) in
/-- Independent calls can be exchanged. -/
def independence : Independence (indistinct env) where
  indep := Independent
  swap := by
    intro w d o c o' h
    change (perform env w c o').1 = (perform env (perform env w d o).2 c o').1 ∧
      (perform env (perform env w c o').2 d o).1 = (perform env w d o).1 ∧
        (indistinct env).rel (perform env (perform env w d o).2 c o').2
          (perform env (perform env w c o').2 d o).2
    change Independent d (perform env w d o).1 c (perform env (perform env w d o).2 c o').1 at h
    by_cases hd : completesSave d (perform env w d o).1 = true
    · -- The first is a completed save, so the second is not about the tables.
      obtain ⟨hread, hsave⟩ := h.saved hd
      obtain ⟨hw, hv⟩ := perform_of_completesSave hd
      have hdb : (perform env w c o').2.db = w.db :=
        db_perform env (fun obj heq ↦ by rw [heq] at hsave; cases hsave) o'
      have hc : perform env (perform env w d o).2 c o' = _ :=
        (congrArg (perform env · c o') hw).trans (perform_withDb env hread hsave w o' _)
      rw [hc, hv _ hdb]
      exact ⟨rfl, rfl, rfl, rfl⟩
    by_cases hcreated : d.createsCharge = true
    · -- The first creates a charge, so the second is not about charges.
      have hasks := h.created hcreated
      obtain ⟨hw, hv⟩ := perform_of_createsCharge env hcreated w o
      have hprovider : (perform env w c o').2.provider = w.provider :=
        provider_perform env (fun request heq ↦ by rw [heq] at hasks; cases hasks) o'
      have hc : perform env (perform env w d o).2 c o' = _ :=
        (congrArg (perform env · c o') hw).trans (perform_withProvider env hasks w o' _)
      rw [hc, hv _ hprovider]
      exact ⟨rfl, rfl, rfl, rfl⟩
    -- The first leaves no trace for the second.
    have hquiet := rel_of_quiet (Bool.not_eq_true _ ▸ hd) (Bool.not_eq_true _ ▸ hcreated)
    obtain ⟨hreply, hafter⟩ := (indistinct env).step c o' hquiet
    change (perform env (perform env w d o).2 c o').1 = (perform env w c o').1 at hreply
    change (indistinct env).rel (perform env (perform env w d o).2 c o').2
      (perform env w c o').2 at hafter
    rw [hreply] at h
    refine ⟨hreply.symm, ?_⟩
    by_cases hc : completesSave c (perform env w c o').1 = true
    · obtain ⟨hread, hsave⟩ := h.saves hc
      have hd : perform env (perform env w c o').2 d o = _ :=
        (congrArg (perform env · d o) (perform_of_completesSave hc).1).trans
          (perform_withDb env hread hsave w o _)
      have hprovider : (perform env w c o').2.provider = w.provider :=
        (congrArg World.provider (perform_of_completesSave hc).1).trans rfl
      rw [hd]
      exact ⟨rfl, hafter.1, (hafter.2.trans hprovider).trans hquiet.2.symm⟩
    by_cases hcreates : c.createsCharge = true
    · have hasks := h.creates hcreates
      have hw := (perform_of_createsCharge env hcreates w o').1
      have hd : perform env (perform env w c o').2 d o = _ :=
        (congrArg (perform env · d o) hw).trans (perform_withProvider env hasks w o _)
      have hdb : (perform env w c o').2.db = w.db := (congrArg World.db hw).trans rfl
      rw [hd]
      exact ⟨rfl, (hafter.1.trans hdb).trans hquiet.1.symm, hafter.2⟩
    · -- Neither leaves a trace.
      have hquiet' := rel_of_quiet (Bool.not_eq_true _ ▸ hc) (Bool.not_eq_true _ ▸ hcreates)
      obtain ⟨hreply', hafter'⟩ := (indistinct env).step d o hquiet'
      have hback := (indistinct env).trans hafter' hquiet
      refine ⟨hreply', ?_, ?_⟩
      · exact (hafter.1.trans hquiet'.1).trans hback.1.symm
      · exact (hafter.2.trans hquiet'.2).trans hback.2.symm

/-! ## The order in which a webhook reads and writes -/

/-- Of two calls about the tables, the first reads and the second writes. -/
def ReadsThenSaves (d c : Call) : Prop :=
  d.readsStatus = true ∨ d.savesStatus = true → c.readsStatus = true ∨ c.savesStatus = true →
    d.readsStatus = true ∧ c.savesStatus = true

theorem always_announced_no_tables (env : Env) (info : TransactionStatus) (data : Js) :
    Always (fun c ↦ c.readsStatus = false ∧ c.savesStatus = false) (announced env info data) := by
  refine (always_announced env info data).mono (fun c hc ↦ ?_) fun _ ↦ id
  rcases hc with ⟨msg, rfl⟩ | ⟨payload, rfl⟩
  · exact ⟨rfl, rfl⟩
  · exact ⟨rfl, rfl⟩

theorem readsThenSaves_of_no_tables {d c : Call} (hc : c.readsStatus = false ∧ c.savesStatus = false) :
    ReadsThenSaves d c := by
  intro _ htables
  rw [hc.1, hc.2] at htables
  simp at htables

theorem ordered_recording (env : Env) (info : TransactionStatus) (data : Js)
    (obj : StatusObject) :
    Ordered ReadsThenSaves (await (Call.statusSave obj) (afterSave env info data) : Program Unit) := by
  intro r
  cases r with
  | error e => exact ⟨trivial, trivial⟩
  | ok _ =>
    have hrest := always_announced_no_tables env info data
    have hordered : ∀ d c : Call, c.readsStatus = false ∧ c.savesStatus = false →
        ReadsThenSaves d c := fun _ _ ↦ readsThenSaves_of_no_tables
    refine ⟨hrest.mono (fun c hc ↦ hordered _ c hc) fun _ ↦ id, ?_⟩
    exact Ordered.of_always (fun d c _ hc ↦ hordered d c hc) hrest

theorem ordered_createTransactionLog (env : Env) (data eventKey : Js) :
    Ordered ReadsThenSaves (createTransactionLog env data eventKey) := by
  refine createTransactionLog_elim trivial fun sourceId _ r ↦ ?_
  rcases r with e | ⟨_ | ⟨info, logs⟩, now⟩
  · exact ⟨trivial, trivial⟩
  · exact ⟨trivial, trivial⟩
  · refine ⟨⟨fun _ _ ↦ ⟨rfl, rfl⟩, fun r _ ↦ ?_⟩, ordered_recording env info data _⟩
    cases r with
    | error e => trivial
    | ok _ =>
      exact (always_announced_no_tables env info data).mono
        (fun c hc ↦ readsThenSaves_of_no_tables hc) fun _ ↦ id

/-- A webhook looks a row up once and saves at most once, in this order. -/
theorem ordered_omiseCallback (env : Env) (body : Js) (headers : Headers) :
    Ordered ReadsThenSaves (program env (.omiseCallback body headers)) := by
  refine Ordered.bind_done (f := fun _ ↦ Response.received) ?_
  refine CallbackController.handleOmiseCallBack_elim trivial (fun _ ↦ trivial) fun r ↦ ?_
  -- The validation is not about the tables, so anything may follow it.
  refine ⟨always_of_forall (fun c h ↦ absurd h ?_) _, ?_⟩
  · simp [Call.readsStatus, Call.savesStatus]
  · cases r with
    | error e => trivial
    | ok _ => exact ordered_createTransactionLog env (body.prop "data") (body.prop "key")

/-- No completed save of one task comes between a lookup and a save of another. -/
def Undisturbed (es : List Event) : Prop :=
  es.Triplewise fun f s g ↦ ¬(f.task = g.task ∧ s.task ≠ f.task ∧ f.call.readsStatus = true ∧
    completesSave s.call s.reply = true ∧ g.call.savesStatus = true)

instance decidableTriplewise {α : Type} {p : α → α → α → Prop}
    [∀ a b c, Decidable (p a b c)] : ∀ l : List α, Decidable (l.Triplewise p)
  | [] => isTrue .nil
  | a :: l =>
    have := decidableTriplewise (p := p) l
    decidable_of_iff (l.Pairwise (p a) ∧ l.Triplewise p) List.triplewise_cons.symm

instance (es : List Event) : Decidable (Undisturbed es) := decidableTriplewise es

theorem savesStatus_of_completesSave {c : Call} {r : Except JsError c.Reply}
    (h : completesSave c r = true) : c.savesStatus = true := by
  cases c with
  | statusSave obj => rfl
  | _ => exact absurd h (by simp [completesSave])

theorem readsStatus_of_savesStatus {c : Call} (h : c.savesStatus = true) :
    c.readsStatus = false := by
  cases c with
  | statusSave obj => rfl
  | _ => exact absurd h (by simp [Call.savesStatus])

/-- The later call of task `e.task` depends on the earlier call, through the tables. -/
def Depends (f e : Event) : Prop :=
  (completesSave f.call f.reply = true ∧ (e.call.readsStatus = true ∨ e.call.savesStatus = true)) ∨
    ((f.call.readsStatus = true ∨ f.call.savesStatus = true) ∧ completesSave e.call e.reply = true)

/-- Dependencies point in one direction: if one task had to go first for one reason and the other for
another, a completed save would come between a lookup and a save. -/
theorem depends_one_way {es : List Event} (hund : Undisturbed es)
    (hordered : es.Pairwise fun f e ↦ f.task = e.task → ReadsThenSaves f.call e.call) {i j : ℕ}
    (hij : i ≠ j) :
    es.Pairwise (fun f e ↦ f.task = j → e.task = i → ¬Depends f e) ∨
      es.Pairwise (fun f e ↦ f.task = i → e.task = j → ¬Depends f e) := by
  rw [List.pairwise_iff_getElem] at hordered
  rw [Undisturbed, List.triplewise_iff_getElem] at hund
  -- A task makes no call about the tables after its completed save.
  have hlast : ∀ x y (hx : x < es.length) (hy : y < es.length), x < y → es[x].task = es[y].task →
      completesSave es[x].call es[x].reply = true →
      es[y].call.readsStatus = true ∨ es[y].call.savesStatus = true → False := by
    intro x y hx hy hxy htask hsave htables
    have hsaves := savesStatus_of_completesSave hsave
    have hreads := (hordered x y hx hy hxy htask (Or.inr hsaves) htables).1
    rw [readsStatus_of_savesStatus hsaves] at hreads
    cases hreads
  -- Between two calls of a task about the tables, no other completes a save.
  have hbetween : ∀ x y z (hx : x < es.length) (hy : y < es.length) (hz : z < es.length),
      x < y → y < z → es[x].task = es[z].task → es[y].task ≠ es[x].task →
      es[x].call.readsStatus = true ∨ es[x].call.savesStatus = true →
      completesSave es[y].call es[y].reply = true →
      es[z].call.readsStatus = true ∨ es[z].call.savesStatus = true → False := by
    intro x y z hx hy hz hxy hyz htask hne htx hsave htz
    obtain ⟨hreads, hsaves⟩ := hordered x z hx hz (hxy.trans hyz) htask htx htz
    exact hund x y z hxy hyz hz ⟨htask, hne, hreads, hsave, hsaves⟩
  have htables : ∀ {e : Event}, completesSave e.call e.reply = true →
      e.call.readsStatus = true ∨ e.call.savesStatus = true :=
    fun h ↦ Or.inr (savesStatus_of_completesSave h)
  -- Otherwise there are two dependent pairs, one in each direction.
  by_contra hnot
  rw [not_or, List.pairwise_iff_getElem, List.pairwise_iff_getElem] at hnot
  obtain ⟨hleft, hright⟩ := hnot
  push Not at hleft hright
  obtain ⟨a, b, ha, hb, hab, haj, hbi, hdep⟩ := hleft
  obtain ⟨c, d, hc, hd, hcd, hci, hdj, hdep'⟩ := hright
  have hbc : es[b].task = es[c].task := hbi.trans hci.symm
  have had : es[a].task = es[d].task := haj.trans hdj.symm
  have hne : es[b].task ≠ es[a].task := by rw [hbi, haj]; exact hij
  rcases hdep with ⟨hsa, htb⟩ | ⟨hta, hsb⟩
  · rcases hdep' with ⟨hsc, htd⟩ | ⟨htc, hsd⟩
    · -- Each task saves before the other goes on.
      have hda : d ≤ a := not_lt.mp fun h ↦ hlast a d ha hd h had hsa htd
      have hcb : b ≤ c := not_lt.mp fun h ↦ hlast c b hc hb h hbc.symm hsc htb
      omega
    · -- The save of task `j` comes between two calls of task `i`.
      have hda : d ≤ a := not_lt.mp fun h ↦ hlast a d ha hd h had hsa (htables hsd)
      exact hbetween c a b hc ha hb (by omega) hab hbc.symm (by rw [← hbc]; exact hne.symm) htc hsa htb
  · rcases hdep' with ⟨hsc, htd⟩ | ⟨htc, hsd⟩
    · have hcb : b ≤ c := not_lt.mp fun h ↦ hlast c b hc hb h hbc.symm hsc (htables hsb)
      exact hbetween a b d ha hb hd hab (by omega) had hne hta hsb htd
    · rcases lt_trichotomy b d with hbd | rfl | hdb
      · exact hbetween a b d ha hb hd hab hbd had hne hta hsb (htables hsd)
      · exact hne had.symm
      · exact hbetween c d b hc hd hb hcd hdb hbc.symm
          (by rw [← hbc, ← had]; exact hne.symm) htc hsd (htables hsb)

/-! ## Two events, one after the other -/

theorem always_omiseCallback (env : Env) (body : Js) (headers : Headers) :
    Always (fun c ↦ c.createsCharge = false) (program env (.omiseCallback body headers)) := by
  refine Follows.bind (Q := fun _ ↦ True) ?_ fun _ _ ↦ trivial
  refine CallbackController.handleOmiseCallBack_elim trivial (fun _ ↦ trivial) ⟨rfl, fun r _ ↦ ?_⟩
  cases r with
  | error e => trivial
  | ok _ =>
    refine (always_createTransactionLog env _ _).mono (fun c hc ↦ ?_) fun _ ↦ id
    cases c with
    | chargesCreate request => exact absurd hc (by simp [Call.asksProvider])
    | _ => rfl

/-- The requests by which two events are delivered. -/
abbrev eventPair (body : Fin 2 → Js) (headers : Fin 2 → Headers) (i : Fin 2) : Request :=
  .omiseCallback (body i) (headers i)

/-- Two requests that have just arrived. -/
def together (env : Env) (q : Fin 2 → Request) (w : World) : Server :=
  (system env).run (Server.start w) [.spawn (q 0), .spawn (q 1)]

theorem tasks_together (env : Env) (q : Fin 2 → Request) (w : World) (i : Fin 2) :
    (together env q w).tasks[i.val]? = some ⟨q i, program env (q i)⟩ := by
  obtain rfl | rfl : i = 0 ∨ i = 1 := by omega
  · rfl
  · rfl

/-- A schedule of the two: which goes on, and with which choice. -/
def schedule (s : List (Fin 2 × Choice)) : List (ℕ × Choice) := s.map fun t ↦ (t.1.val, t.2)

/-- The choices a schedule has for one of the two. -/
def share (s : List (Fin 2 × Choice)) (i : Fin 2) : ℕ → Choice :=
  stream (System.choicesOf i.val (schedule s))

/-- The server after a schedule of two requests. -/
def interleaved (env : Env) (q : Fin 2 → Request) (w : World) (s : List (Fin 2 × Choice)) :
    Server :=
  (system env).run (together env q w) (System.turns (schedule s))

/-- The calls of a schedule of two requests. -/
def interleavedCalls (env : Env) (q : Fin 2 → Request) (w : World)
    (s : List (Fin 2 × Choice)) : List Event :=
  (system env).trace (together env q w) (System.turns (schedule s))

/-- The world after two requests one after the other, `i` before `j`. -/
def oneByOne (env : Env) (q : Fin 2 → Request) (w : World) (s : List (Fin 2 × Choice))
    (i j : Fin 2) : World :=
  (serve env (q j) (share s j) (serve env (q i) (share s i) w).2).2

section Serial

variable {body : Fin 2 → Js} {headers : Fin 2 → Headers} {w : World} {s : List (Fin 2 × Choice)}

/-- If nothing that one event does depends on anything that the other did before, they leave what they
leave in this order. -/
theorem db_of_one_way {i j : Fin 2} (hij : i ≠ j)
    (hfin : ∀ t ∈ (interleaved env (eventPair body headers) w s).tasks, t.rest.Finished)
    (hpair : (interleavedCalls env (eventPair body headers) w s).Pairwise
      fun f e ↦ f.task = j.val → e.task = i.val → ¬Depends f e) :
    (interleaved env (eventPair body headers) w s).world.db =
      (oneByOne env (eventPair body headers) w s i j).db := by
  have htasks := tasks_together env (eventPair body headers) w
  have hcreate : ∀ (n : Fin 2), ∀ e ∈ interleavedCalls env (eventPair body headers) w s,
      e.task = n.val → e.call.createsCharge = false :=
    fun n e he ↦ System.of_mem_trace_turns (htasks n) (always_omiseCallback env _ _) _ he
  have hindep : (interleavedCalls env (eventPair body headers) w s).Pairwise fun f e ↦
      f.task = j.val → e.task = i.val → Independent f.call f.reply e.call e.reply := by
    refine hpair.imp_of_mem fun {f e} hf he hnot hfj hei ↦ ?_
    have hnot' := not_or.mp (hnot hfj hei)
    refine ⟨fun hsave ↦ ?_, fun hsave ↦ ?_, fun h ↦ ?_, fun h ↦ ?_⟩
    · simpa using fun h ↦ hnot'.1 ⟨hsave, h⟩
    · simpa using fun h ↦ hnot'.2 ⟨h, hsave⟩
    · exact absurd h (by rw [hcreate j f hf hfj]; simp)
    · exact absurd h (by rw [hcreate i e he hei]; simp)
  have hs : ∀ t ∈ schedule s, t.1 = i.val ∨ t.1 = j.val := by
    intro t ht
    obtain ⟨t, -, rfl⟩ := List.mem_map.mp ht
    omega
  obtain ⟨hi, hj, hrel, -⟩ := System.run_serial (independence env)
    (Fin.val_ne_of_ne hij) hs (htasks i) (htasks j) hindep
  have hfirst := world_of_exec (hfin _ (List.mem_of_getElem? hi))
  have hsecond := world_of_exec (hfin _ (List.mem_of_getElem? hj))
  rw [interleaved, hrel.1, ← hsecond, ← hfirst]
  rfl

end Serial

/-- Two events handled at the same time, in any interleaving in which no completed save of one comes
between the lookup and the save of the other: the tables are those of handling the two one after the
other in some order, with the same choices, and the log entry of neither is lost. -/
theorem events_serializable (env : Env) (body : Fin 2 → Js) (headers : Fin 2 → Headers) (w : World)
    (s : List (Fin 2 × Choice))
    (hfin : ∀ t ∈ (interleaved env (eventPair body headers) w s).tasks, t.rest.Finished)
    (hund : Undisturbed (interleavedCalls env (eventPair body headers) w s)) :
    ∃ i j : Fin 2, i ≠ j ∧
      (interleaved env (eventPair body headers) w s).world.db =
        (oneByOne env (eventPair body headers) w s i j).db ∧
      AppendsOnly w.db (serve env (eventPair body headers i) (share s i) w).2.db ∧
      AppendsOnly (serve env (eventPair body headers i) (share s i) w).2.db
        (interleaved env (eventPair body headers) w s).world.db := by
  have hordered : (interleavedCalls env (eventPair body headers) w s).Pairwise
      fun f e ↦ f.task = e.task → ReadsThenSaves f.call e.call := by
    refine System.pairwise_trace_turns (fun t ht ↦ ?_) _
    rcases List.mem_pair.mp ht with rfl | rfl
    · exact ordered_omiseCallback env (body 0) (headers 0)
    · exact ordered_omiseCallback env (body 1) (headers 1)
  have hserial : ∀ i j : Fin 2, (interleaved env (eventPair body headers) w s).world.db =
        (oneByOne env (eventPair body headers) w s i j).db →
      AppendsOnly w.db (serve env (eventPair body headers i) (share s i) w).2.db ∧
      AppendsOnly (serve env (eventPair body headers i) (share s i) w).2.db
        (interleaved env (eventPair body headers) w s).world.db := by
    intro i j hdb
    rw [hdb]
    exact ⟨appendsOnly_event env _ _ _ _, appendsOnly_event env _ _ _ _⟩
  have h01 : (0 : Fin 2) ≠ 1 := by decide
  rcases depends_one_way hund hordered (Fin.val_ne_of_ne h01) with hpair | hpair
  · have hdb := db_of_one_way h01 hfin hpair
    exact ⟨0, 1, h01, hdb, hserial 0 1 hdb⟩
  · have hdb := db_of_one_way h01.symm hfin hpair
    exact ⟨1, 0, h01.symm, hdb, hserial 1 0 hdb⟩

/-- Two events of the paid order in the shop. -/
def Shop.bothEvents : Fin 2 → Js
  | 0 => eventBody .complete paidCharge
  | 1 => eventBody .update paidCharge

/-- Let the two go on in turns. -/
def Shop.inTurns (order : List (Fin 2)) : List (Fin 2 × Choice) :=
  order.mapIdx fun n i ↦ (i, choice ("hook" ++ toString n))

/-- The second event is validated while the first is being recorded, and looks the order up after
that. -/
theorem events_serializable_in_shop :
    ∃ i j : Fin 2, i ≠ j ∧
      ((interleaved Shop.platform (eventPair Shop.bothEvents fun _ ↦ eventHeaders Shop.platform)
          (Shop.after Shop.paidFor).world (Shop.inTurns [0, 1, 0, 0, 1, 0, 1, 0, 1, 1])).world.db =
        (oneByOne Shop.platform (eventPair Shop.bothEvents fun _ ↦ eventHeaders Shop.platform)
          (Shop.after Shop.paidFor).world (Shop.inTurns [0, 1, 0, 0, 1, 0, 1, 0, 1, 1]) i j).db) := by
  obtain ⟨i, j, hij, hdb, -⟩ := events_serializable Shop.platform Shop.bothEvents
    (fun _ ↦ eventHeaders Shop.platform) (Shop.after Shop.paidFor).world
    (Shop.inTurns [0, 1, 0, 0, 1, 0, 1, 0, 1, 1]) (by decide +kernel) (by decide +kernel)
  exact ⟨i, j, hij, hdb⟩

/-- Both look the order up before either saves: one entry is lost that neither order loses. -/
theorem second_save_loses_entry :
    ((interleaved Shop.platform (eventPair Shop.bothEvents fun _ ↦ eventHeaders Shop.platform)
        (Shop.after Shop.paidFor).world
        (Shop.inTurns [0, 1, 0, 1, 0, 1, 0, 1, 0, 1])).world.db.attached Shop.orderId).map
          (·.eventKey) = [some "charge.create", some "charge.update"] ∧
      ∀ i j : Fin 2, i ≠ j →
        ((oneByOne Shop.platform (eventPair Shop.bothEvents fun _ ↦ eventHeaders Shop.platform)
          (Shop.after Shop.paidFor).world (Shop.inTurns [0, 1, 0, 1, 0, 1, 0, 1, 0, 1])
          i j).db.attached Shop.orderId).length = 3 := by
  decide +kernel

end PaymentService
