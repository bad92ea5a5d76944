import PaymentService.Async.History

/-!
# Receipts

Some calls leave something in the state for good, and a task that returns hands out receipts for it.
`Receipted given receipt p` is about the text of a program: what a call leaves is what the program
hands out when it returns with the answer, and nothing when it goes on or throws. So the call that
leaves something is the last one.

For a whole run it says that nothing is left behind without a receipt and that no receipt is handed
out twice: up to order, what is there is what was there at the start and what the tasks that have
returned have handed out.
-/

namespace Async

variable {C : Type} {R : C → Type} {ε α β σ ω ι μ γ : Type}

/-! ## Receipted programs -/

/-- What a program has handed out: nothing, unless it has returned. -/
def receipts (receipt : α → List γ) (p : Async C R ε α) : List γ := p.value?.elim [] receipt

/-- Whatever the answers are, what a call leaves is what the program hands out with its answer. -/
def Receipted (given : (c : C) → Except ε (R c) → List γ) (receipt : α → List γ) :
    Async C R ε α → Prop
  | done _ => True
  | fail _ => True
  | await c k => ∀ r, given c r = receipts receipt (k r) ∧ Receipted given receipt (k r)

section Receipted

variable {given : (c : C) → Except ε (R c) → List γ} {receipt : α → List γ}

@[simp] theorem receipts_done (a : α) :
    receipts receipt (done a : Async C R ε α) = receipt a := rfl

@[simp] theorem receipts_fail (e : ε) : receipts receipt (fail e : Async C R ε α) = [] := rfl

@[simp] theorem receipts_await (c : C) (k : Except ε (R c) → Async C R ε α) :
    receipts receipt (await c k) = [] := rfl

theorem receipts_bind_done (p : Async C R ε α) (f : α → μ) (receipt : μ → List γ) :
    receipts receipt (p >>= fun a ↦ done (f a)) = receipts (fun a ↦ receipt (f a)) p := by
  match p with
  | done a => rfl
  | fail e => rfl
  | await c k => rfl

theorem Receipted.bind_done {p : Async C R ε α} {f : α → μ} {receipt : μ → List γ}
    (hp : Receipted given (fun a ↦ receipt (f a)) p) :
    Receipted given receipt (p >>= fun a ↦ done (f a)) := by
  induction p with
  | done a => trivial
  | fail e => trivial
  | await c k ih =>
    intro r
    obtain ⟨hgiven, hk⟩ := hp r
    refine ⟨?_, ih r hk⟩
    rw [hgiven]
    exact (receipts_bind_done (k r) f receipt).symm

theorem Receipted.bind {p : Async C R ε α} {f : α → Async C R ε μ} {receipt : μ → List γ}
    (hp : Always (fun c ↦ ∀ r, given c r = []) p) (hf : ∀ a, Receipted given receipt (f a))
    (hnone : ∀ a, receipts receipt (f a) = []) :
    Receipted given receipt (p >>= f) ∧ receipts receipt (p >>= f) = [] := by
  induction p with
  | done a => exact ⟨hf a, hnone a⟩
  | fail e => exact ⟨trivial, rfl⟩
  | await c k ih =>
    refine ⟨fun r ↦ ?_, rfl⟩
    obtain ⟨hk, hempty⟩ := ih r (hp.2 r trivial)
    exact ⟨(hp.1 r).trans hempty.symm, hk⟩

/-- A program whose calls leave nothing and whose values are no receipts. -/
theorem receipted_of_nothing (hgiven : ∀ c r, given c r = []) (hreceipt : ∀ a, receipt a = [])
    (p : Async C R ε α) : Receipted given receipt p ∧ receipts receipt p = [] := by
  induction p with
  | done a => exact ⟨trivial, hreceipt a⟩
  | fail e => exact ⟨trivial, rfl⟩
  | await c k ih => exact ⟨fun r ↦ ⟨(hgiven c r).trans (ih r).2.symm, (ih r).1⟩, rfl⟩

theorem receipted_bind_done_of_nothing {f : α → μ} {receipt : μ → List γ}
    (hgiven : ∀ c r, given c r = []) (hreceipt : ∀ a, receipt (f a) = []) (p : Async C R ε α) :
    Receipted given receipt (p >>= fun a ↦ done (f a)) ∧
      receipts receipt (p >>= fun a ↦ done (f a)) = [] := by
  obtain ⟨hp, hnone⟩ := receipted_of_nothing hgiven hreceipt p
  exact ⟨hp.bind_done, (receipts_bind_done p f receipt).trans hnone⟩

end Receipted

/-! ## Runs -/

theorem flatMap_set_perm {δ : Type} {f : δ → List γ} {l : List δ} {i : ℕ} {a : δ}
    (hi : l[i]? = some a) (ha : f a = []) (b : δ) :
    ((l.set i b).flatMap f).Perm (l.flatMap f ++ f b) := by
  induction l generalizing i with
  | nil => exact absurd hi (by simp)
  | cons a' l ih =>
    match i with
    | 0 =>
      obtain rfl : a' = a := by simpa using hi
      rw [List.set_cons_zero, List.flatMap_cons, List.flatMap_cons, ha, List.nil_append]
      exact List.perm_append_comm
    | i + 1 =>
      rw [List.set_cons_succ, List.flatMap_cons, List.flatMap_cons, List.append_assoc]
      exact (ih (by simpa using hi)).append_left (f a')

namespace System

variable {S : System C R ε α σ ω ι β} {given : ι → (c : C) → Except ε (R c) → List γ}
  {receipt : α → List γ} {m : σ → List γ} {I : Pool C R ε α σ ι → Prop}

/-- What the tasks of a pool have handed out. -/
def handedOut (receipt : α → List γ) (p : Pool C R ε α σ ι) : List γ :=
  p.tasks.flatMap fun t ↦ receipts receipt t.rest

/-- What there is, is what there was and what has been handed out. -/
def Accounted (given : ι → (c : C) → Except ε (R c) → List γ) (receipt : α → List γ)
    (m : σ → List γ) (before : List γ) (p : Pool C R ε α σ ι) : Prop :=
  (∀ t ∈ p.tasks, Receipted (given t.request) receipt t.rest) ∧
    (m p.world).Perm (before ++ handedOut receipt p)

theorem accounted_advance {before : List γ} {p : Pool C R ε α σ ι} {a : Action ω ι β}
    (hprogram : ∀ q, Receipted (given q) receipt (S.program q) ∧
      receipts receipt (S.program q) = [])
    (hcall : ∀ {i : ℕ} {q : ι} {c : C} {k : Except ε (R c) → Async C R ε α} (o : ω),
      p.tasks[i]? = some ⟨q, await c k⟩ →
      (m (S.handler p.world c o).2).Perm (m p.world ++ given q c (S.handler p.world c o).1))
    (hback : ∀ w b, m (S.background w b) = m w) (hp : Accounted given receipt m before p) :
    Accounted given receipt m before (S.advance p a).2 := by
  obtain ⟨htasks, hperm⟩ := hp
  match a with
  | .env b => exact ⟨htasks, (hback p.world b).symm ▸ hperm⟩
  | .spawn q =>
    obtain ⟨hq, hempty⟩ := hprogram q
    constructor
    · intro t ht
      rcases List.mem_append.mp ht with ht | ht
      · exact htasks t ht
      · rw [List.mem_singleton.mp ht]
        exact hq
    · have hsame : handedOut receipt (S.advance p (.spawn q)).2 = handedOut receipt p := by
        rw [advance_spawn, handedOut, List.flatMap_append, List.flatMap_singleton, hempty,
          List.append_nil]
        rfl
      rw [hsame]
      exact hperm
  | .resume i o =>
    rcases S.advance_resume_cases p i o with heq | ⟨q, c, k, hi, heq⟩
    · rw [heq]
      exact ⟨htasks, hperm⟩
    · obtain ⟨hgiven, hk⟩ := htasks _ (List.mem_of_getElem? hi) (S.handler p.world c o).1
      rw [heq]
      constructor
      · intro t ht
        rcases List.mem_or_eq_of_mem_set ht with ht | rfl
        · exact htasks t ht
        · exact hk
      · -- The suspended task had handed out nothing, and now hands out what its call has left.
        refine (hcall o hi).trans ?_
        rw [hgiven]
        refine (hperm.append_right _).trans ?_
        rw [List.append_assoc]
        have hset := flatMap_set_perm (f := fun t : Task C R ε α ι ↦ receipts receipt t.rest) hi rfl
          ⟨q, k (S.handler p.world c o).1⟩
        exact hset.symm.append_left before

/-- In every run, what there is, is what there was at the start and what the tasks that have returned
have handed out. -/
theorem accounted_run
    (hprogram : ∀ q, Receipted (given q) receipt (S.program q) ∧
      receipts receipt (S.program q) = [])
    (hI : ∀ p a, I p → I (S.advance p a).2)
    (hcall : ∀ {p : Pool C R ε α σ ι} {i : ℕ} {q : ι} {c : C}
      {k : Except ε (R c) → Async C R ε α} (o : ω), I p → p.tasks[i]? = some ⟨q, await c k⟩ →
      (m (S.handler p.world c o).2).Perm (m p.world ++ given q c (S.handler p.world c o).1))
    (hback : ∀ w b, m (S.background w b) = m w) {w : σ} (hw : I ⟨w, []⟩)
    (as : List (Action ω ι β)) :
    (m (S.run ⟨w, []⟩ as).world).Perm (m w ++ handedOut receipt (S.run ⟨w, []⟩ as)) := by
  have hstart : Accounted given receipt m (m w) (⟨w, []⟩ : Pool C R ε α σ ι) := by
    refine ⟨fun t ht ↦ absurd ht List.not_mem_nil, ?_⟩
    rw [handedOut, List.flatMap_nil, List.append_nil]
  have hinv := run_inv (S := S) (I := fun p ↦ I p ∧ Accounted given receipt m (m w) p)
    (fun p a ⟨hp, haccounted⟩ ↦
      ⟨hI p a hp, accounted_advance hprogram (fun o hi ↦ hcall o hp hi) hback haccounted⟩)
    ⟨hw, hstart⟩ as
  exact hinv.2.2

end System

end Async
