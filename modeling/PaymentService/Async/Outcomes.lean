import PaymentService.Async.Front
import PaymentService.Async.Protocol

/-!
# What tasks have returned

A task that has returned stays as it is, and the world goes on. What can be said of the two is what
was true when the task returned and has stayed true since. `of_returned` says so for a contract: what
a task returns stands in a known relation to its last call and the answer, so at that moment
something is true of the world, and what every move keeps is true from then on.

A program that makes one call and returns is accounted for more directly, by the state at its call.
`returned_of_single` finds that state in the run.
-/

namespace Async

variable {C : Type} {R : C → Type} {ε α σ ω ι β Q : Type}

/-! ## How programs end -/

/-- Relying on answers in `ρ`, the program returns a value in `V` or throws an error in `E`. -/
def Ends (ρ : (c : C) → Except ε (R c) → Prop) (V : α → Prop) (E : ε → Prop) :
    Async C R ε α → Prop
  | done a => V a
  | fail e => E e
  | await c k => ∀ r, ρ c r → Ends ρ V E (k r)

section Ends

variable {ρ : (c : C) → Except ε (R c) → Prop} {V : α → Prop} {V' : β → Prop} {E F : ε → Prop}

theorem Ends.of_finished {p : Async C R ε α} (h : Ends ρ V E p) (hp : p.Finished) :
    (∃ a, p = done a ∧ V a) ∨ ∃ e, p = fail e ∧ E e := by
  match p, h, hp with
  | done a, h, _ => exact Or.inl ⟨a, rfl, h⟩
  | fail e, h, _ => exact Or.inr ⟨e, rfl, h⟩

theorem Ends.bind {p : Async C R ε α} {f : α → Async C R ε β} (hp : Ends ρ V E p)
    (hf : ∀ a, V a → Ends ρ V' E (f a)) : Ends ρ V' E (p >>= f) := by
  induction p with
  | done a => exact hf a hp
  | fail e => exact hp
  | await c k ih => exact fun r hr ↦ ih r (hp r hr)

theorem Ends.tryCatch {p : Async C R ε α} {h : ε → Async C R ε α} (hp : Ends ρ V F p)
    (hh : ∀ e, F e → Ends ρ V E (h e)) : Ends ρ V E (tryCatch p h) := by
  induction p with
  | done a => exact hp
  | fail e => exact hh e hp
  | await c k ih => exact fun r hr ↦ ih r (hp r hr)

theorem Ends.mono {V₂ : α → Prop} {p : Async C R ε α} (hp : Ends ρ V E p)
    (h : ∀ a, V a → V₂ a) : Ends ρ V₂ E p := by
  induction p with
  | done a => exact h a hp
  | fail e => exact hp
  | await c k ih => exact fun r hr ↦ ih r (hp r hr)

theorem ends_call {c : C} (h : ∀ e, ρ c (.error e) → E e) :
    Ends ρ (fun _ ↦ True) E (call c : Async C R ε (R c)) := by
  intro r hr
  match r, hr with
  | .ok v, _ => trivial
  | .error e, hr => exact h e hr

theorem ends_orThrow {e : ε} (h : E e) (a : Option α) :
    Ends ρ (fun _ ↦ True) E (orThrow e a : Async C R ε α) := by
  match a with
  | some _ => trivial
  | none => exact h

theorem ends_of_forall (hV : ∀ a, V a) (hE : ∀ e, E e) (p : Async C R ε α) : Ends ρ V E p := by
  induction p with
  | done a => exact hV a
  | fail e => exact hE e
  | await c k ih => exact fun r _ ↦ ih r

theorem Ends.answered {D α' : Type} {T : D → Type} {f : C → D} {respond : Except ε α → α'}
    {ρ : (d : D) → Except ε (T d) → Prop} {V' : α' → Prop} {p : Async C (fun c ↦ T (f c)) ε α}
    (hp : Ends (fun c ↦ ρ (f c)) V E p) (hok : ∀ a, V a → V' (respond (.ok a)))
    (herror : ∀ e, E e → V' (respond (.error e))) :
    Ends ρ V' (fun _ ↦ False) (answered f respond p) := by
  induction p with
  | done a => exact hok a hp
  | fail e => exact herror e hp
  | await c k ih => exact fun r hr ↦ ih r (hp r hr)

end Ends

/-! ## Counting down -/

/-- The protocol that allows a number of calls. -/
def countdown : Protocol C R ε ℕ
  | 0, _, _ => none
  | n + 1, _, _ => some n

theorem ranked_countdown : (countdown : Protocol C R ε ℕ).Ranked id := by
  intro s c r s' h
  match s, h with
  | n + 1, h =>
    obtain rfl := Option.some_inj.mp h
    exact Nat.lt_succ_self n

theorem Obeys.countdown {P : Protocol C R ε Q} {rank : Q → ℕ} (hrank : P.Ranked rank) {s : Q}
    {p : Async C R ε α} (hp : Obeys P s p) {n : ℕ} (hn : rank s ≤ n) : Obeys countdown n p := by
  induction p generalizing s n with
  | done a => trivial
  | fail e => trivial
  | await c k ih =>
    intro r
    obtain ⟨s', hstep, hk⟩ := hp r
    have hlt := hrank s c r s' hstep
    match n, hn with
    | 0, hn => omega
    | n + 1, hn => exact ⟨n, rfl, ih r hk (by omega)⟩

theorem Obeys.countdown_answered {D α' : Type} {T : D → Type} {f : C → D}
    {respond : Except ε α → α'} {p : Async C (fun c ↦ T (f c)) ε α} {n : ℕ}
    (hp : Obeys Async.countdown n p) : Obeys Async.countdown n (answered f respond p) := by
  induction p generalizing n with
  | done a => trivial
  | fail e => trivial
  | await c k ih =>
    intro r
    obtain ⟨n', hstep, hk⟩ := hp r
    match n, hstep with
    | n + 1, hstep =>
      obtain rfl := Option.some_inj.mp hstep
      exact ⟨n, rfl, ih r hk⟩

namespace System

variable {S : System C R ε α σ ω ι β}

/-! ## In every run -/

/-- What every program is and stays when it is resumed, what is left of every task is. -/
theorem tasks_inv {I : ι → Async C R ε α → Prop} (hprogram : ∀ q, I q (S.program q))
    (hcall : ∀ {q c k} w o, I q (await c k) → I q (k (S.handler w c o).1)) (w : σ)
    (as : List (Action ω ι β)) : ∀ t ∈ (S.run ⟨w, []⟩ as).tasks, I t.request t.rest := by
  refine run_inv (I := fun p ↦ ∀ t ∈ p.tasks, I t.request t.rest) (fun p a hp t ht ↦ ?_)
    (fun t ht ↦ absurd ht List.not_mem_nil) as
  match a with
  | .env b => exact hp t ht
  | .spawn q =>
    rcases List.mem_append.mp ht with ht | ht
    · exact hp t ht
    · rw [List.mem_singleton.mp ht]
      exact hprogram q
  | .resume i o =>
    rcases S.advance_resume_cases p i o with heq | ⟨q, c, k, hi, heq⟩
    · rw [heq] at ht
      exact hp t ht
    · rw [heq] at ht
      rcases List.mem_or_eq_of_mem_set ht with ht | rfl
      · exact hp t ht
      · exact hcall p.world o (hp _ (List.mem_of_getElem? hi))

/-- Every task ends as its program does, when the programs can rely on the answers they get. -/
theorem ends_run {ρ : (c : C) → Except ε (R c) → Prop} {V : ι → α → Prop} {E : ι → ε → Prop}
    (hρ : ∀ w c o, ρ c (S.handler w c o).1) (hprogram : ∀ q, Ends ρ (V q) (E q) (S.program q))
    (w : σ) (as : List (Action ω ι β)) :
    ∀ t ∈ (S.run ⟨w, []⟩ as).tasks, Ends ρ (V t.request) (E t.request) t.rest :=
  tasks_inv (I := fun q ↦ Ends ρ (V q) (E q)) hprogram (fun w o h ↦ h _ (hρ w _ o)) w as

theorem of_returned (K : Contract S) {ψ : ι → (c : C) → Except ε (R c) → α → Prop}
    {P : σ → ι → α → Prop} (hψ : ∀ q, Concludes (ψ q) (S.program q))
    (hdone : ∀ w q v, S.program q = done v → P w q v)
    (hcall : ∀ {w q c} o v, K.inv w → K.guarantee w q c → ψ q c (S.handler w c o).1 v →
      P (S.handler w c o).2 q v)
    (hstay : ∀ {w w' q v}, K.evolves w w' → P w q v → P w' q v) {w : σ} (hw : K.inv w)
    (as : List (Action ω ι β)) {t : Task C R ε α ι} (ht : t ∈ (S.run ⟨w, []⟩ as).tasks) {v : α}
    (hv : t.rest = done v) : P (S.run ⟨w, []⟩ as).world t.request v := by
  refine ((run_inv (I := fun p ↦ K.Holds p ∧ ∀ t ∈ p.tasks, Concludes (ψ t.request) t.rest ∧
    ∀ v, t.rest = done v → P p.world t.request v) (fun p a hp ↦ ?_)
    ⟨Contract.holds_start hw, fun t ht ↦ absurd ht List.not_mem_nil⟩ as).2 t ht).2 v hv
  obtain ⟨hholds, htasks⟩ := hp
  refine ⟨Contract.holds_advance hholds a, fun t ht ↦ ?_⟩
  have hevolves : K.evolves p.world (S.advance p a).2.world := Contract.evolves_run hholds [a]
  have hold : ∀ t ∈ p.tasks, Concludes (ψ t.request) t.rest ∧
      ∀ v, t.rest = done v → P (S.advance p a).2.world t.request v := fun t ht ↦
    ⟨(htasks t ht).1, fun v hv ↦ hstay hevolves ((htasks t ht).2 v hv)⟩
  match a with
  | .env b => exact hold t ht
  | .spawn q =>
    rcases List.mem_append.mp ht with ht | ht
    · exact hold t ht
    · rw [List.mem_singleton.mp ht]
      exact ⟨hψ q, fun v hv ↦ hdone _ q v hv⟩
  | .resume i o =>
    rcases S.advance_resume_cases p i o with heq | ⟨q, c, k, hi, heq⟩
    · rw [heq] at ht
      exact hold t ht
    · rw [heq] at ht
      rcases List.mem_or_eq_of_mem_set ht with ht | rfl
      · exact hold t ht
      · -- The task may return just now, on the answer to its last call.
        have hlast := (htasks _ (List.mem_of_getElem? hi)).1 (S.handler p.world c o).1
        refine ⟨hlast.2, fun v hv ↦ ?_⟩
        rw [heq]
        exact hcall o v hholds.1 (hholds.guarantee hi) (hlast.1 v hv)

/-- A task with one call is suspended at it, or has returned what it makes of the answer, which was
given by a state that the run has gone through since it arrived. -/
theorem returned_of_single {q : ι} {c : C} {g : Except ε (R c) → α}
    (hprogram : S.program q = await c fun r ↦ done (g r)) (p : Pool C R ε α σ ι)
    (as : List (Action ω ι β)) :
    (S.run p (.spawn q :: as)).tasks[p.tasks.length]? = some ⟨q, S.program q⟩ ∨
      ∃ bs o cs, as = bs ++ .resume p.tasks.length o :: cs ∧
        (S.run p (.spawn q :: as)).tasks[p.tasks.length]? =
          some ⟨q, done (g (S.handler (S.run p (.spawn q :: bs)).world c o).1)⟩ := by
  induction as using List.reverseRecOn with
  | nil =>
    left
    rw [run_cons, run_nil, advance_spawn, List.getElem?_append_right (Nat.le_refl _), Nat.sub_self]
    rfl
  | append_singleton as a ih =>
    rw [← List.cons_append, run_append]
    rcases ih with ih | ⟨bs, o, cs, rfl, ih⟩
    · match a with
      | .env b => exact Or.inl ih
      | .spawn q' =>
        left
        rw [run_cons, run_nil, advance_spawn,
          List.getElem?_append_left (List.getElem?_eq_some_iff.mp ih).1, ih]
      | .resume n o =>
        by_cases hn : n = p.tasks.length
        · right
          rw [hprogram] at ih
          refine ⟨as, o, [], by rw [hn], ?_⟩
          rw [run_cons, run_nil, hn, S.advance_resume ih,
            List.getElem?_set_self (List.getElem?_eq_some_iff.mp ih).1]
        · left
          rw [run_cons, run_nil]
          rcases S.advance_resume_cases (S.run p (.spawn q :: as)) n o with heq | ⟨q', c', k, -, heq⟩
          · rw [heq, ih]
          · rw [heq, List.getElem?_set_ne hn, ih]
    · right
      refine ⟨bs, o, cs ++ [a], by simp, ?_⟩
      exact task_of_finished ih trivial [a]

end System

end Async
