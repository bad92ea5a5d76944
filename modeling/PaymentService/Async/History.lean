import PaymentService.Async.Pool
import Mathlib.Data.List.Induction

/-!
# What a call was computed from

A task is a function of the answers it has got. So a call that a run performs can be accounted for by
earlier calls of the same task and their answers, and those in turn were answered by states that the
run went through before. `computed_of_trace` is the first half: if every program, relying on nothing
but answers it has heard, issues only calls in `Φ`, then every call of a run is in `Φ` with what its
task had heard by then. `performed_of_trace` is the second half: a call of the trace was answered by
the state at that place of the run.

Both are about the past of a call, so an invariant that needs them is proved with `run_inv_of_past`,
which gives a step the invariant at all earlier states and not only at the last one.

What a task returns is accounted for in the same way by the call it has ended with.
-/

namespace Async

namespace System

variable {C : Type} {R : C → Type} {ε α σ ω ι β : Type} {S : System C R ε α σ ω ι β}

/-! ## Invariants of runs with their traces -/

theorem run_trace_inv {I : List (Occurrence C R ε ι) → Pool C R ε α σ ι → Prop}
    (hI : ∀ es p a, I es p → I (es ++ (S.advance p a).1.toList) (S.advance p a).2)
    {p : Pool C R ε α σ ι} (hp : I [] p) (as : List (Action ω ι β)) :
    I (S.trace p as) (S.run p as) := by
  have hgen : ∀ (as : List (Action ω ι β)) es p, I es p → I (es ++ S.trace p as) (S.run p as) := by
    intro as
    induction as with
    | nil =>
      intro es p hp
      simpa using hp
    | cons a as ih =>
      intro es p hp
      have hrest := ih _ _ (hI es p a hp)
      rwa [List.append_assoc] at hrest
  exact hgen as [] p hp

/-- An invariant of the states of a run, where each move may use that it held at all earlier
states. -/
theorem run_inv_of_past {I : Pool C R ε α σ ι → Prop} {p : Pool C R ε α σ ι}
    {as : List (Action ω ι β)} (hp : I p)
    (hI : ∀ bs a cs, as = bs ++ a :: cs → (∀ ds es, bs = ds ++ es → I (S.run p ds)) →
      I (S.advance (S.run p bs) a).2) : I (S.run p as) := by
  have hgen : ∀ bs cs, as = bs ++ cs → ∀ ds es, bs = ds ++ es → I (S.run p ds) := by
    intro bs
    induction bs using List.reverseRecOn with
    | nil =>
      intro cs _ ds es hds
      obtain ⟨rfl, -⟩ := List.append_eq_nil_iff.mp hds.symm
      exact hp
    | append_singleton bs a ih =>
      intro cs has ds es hds
      rw [List.append_assoc] at has
      have hpast := ih (a :: cs) has
      -- A proper prefix is covered by the induction, and the whole is one more move.
      rcases List.eq_nil_or_concat es with rfl | ⟨es, b, rfl⟩
      · obtain rfl : bs ++ [a] = ds := by simpa using hds
        rw [run_append]
        exact hI bs a cs has hpast
      · rw [List.concat_eq_append, ← List.append_assoc] at hds
        exact hpast ds es (List.append_inj_left' hds rfl)
  exact hgen as [] (List.append_nil as).symm as [] (List.append_nil as).symm

/-! ## The state at a call -/

/-- A call of a run was performed in the state at its place. -/
theorem performed_of_trace {p : Pool C R ε α σ ι} {as : List (Action ω ι β)}
    {es es' : List (Occurrence C R ε ι)} {e : Occurrence C R ε ι}
    (h : S.trace p as = es ++ e :: es') :
    ∃ bs a cs o, as = bs ++ a :: cs ∧ S.trace p bs = es ∧
      (S.advance (S.run p bs) a).1 = some e ∧
      e.reply = (S.handler (S.run p bs).world e.call o).1 ∧
      (S.advance (S.run p bs) a).2.world = (S.handler (S.run p bs).world e.call o).2 := by
  obtain ⟨bs, a, cs, has, hbs, hcall, -⟩ := S.trace_split h
  obtain ⟨q, c, k, o, -, heq, hnext⟩ := exists_of_advance_eq_some hcall
  refine ⟨bs, a, cs, o, has, hbs, hcall, ?_, ?_⟩
  · rw [heq]
  · rw [hnext, heq]

/-- The same for a member of the trace of a run from the start; its request has arrived before. -/
theorem performed_of_mem_trace {p : Pool C R ε α σ ι} {as : List (Action ω ι β)}
    {e : Occurrence C R ε ι} (he : e ∈ S.trace p as) :
    ∃ bs a cs o, as = bs ++ a :: cs ∧ (S.advance (S.run p bs) a).1 = some e ∧
      e.reply = (S.handler (S.run p bs).world e.call o).1 ∧
      (S.advance (S.run p bs) a).2.world = (S.handler (S.run p bs).world e.call o).2 := by
  obtain ⟨es, es', h⟩ := List.append_of_mem he
  obtain ⟨bs, a, cs, o, has, -, hrest⟩ := performed_of_trace h
  exact ⟨bs, a, cs, o, has, hrest⟩

theorem trace_of_advance {p : Pool C R ε α σ ι} {bs cs : List (Action ω ι β)}
    {a : Action ω ι β} {e : Occurrence C R ε ι} (h : (S.advance (S.run p bs) a).1 = some e) :
    S.trace p (bs ++ a :: cs) =
      S.trace p bs ++ e :: S.trace (S.advance (S.run p bs) a).2 cs := by
  rw [trace_append, trace_cons, h, Option.toList_some, List.singleton_append]

theorem request_mem_arrivals {w : σ} {as : List (Action ω ι β)} {t : Task C R ε α ι}
    (ht : t ∈ (S.run ⟨w, []⟩ as).tasks) : t.request ∈ arrivals as := by
  induction as using List.reverseRecOn generalizing t with
  | nil => exact absurd ht (by simp)
  | append_singleton as a ih =>
    rw [run_append, run_cons, run_nil] at ht
    rw [arrivals_append, List.mem_append]
    cases a with
    | spawn q =>
      rcases List.mem_append.mp ht with ht | ht
      · exact Or.inl (ih ht)
      · obtain rfl := List.mem_singleton.mp ht
        exact Or.inr (List.mem_singleton_self _)
    | env b => exact Or.inl (ih ht)
    | resume i o =>
      rcases S.advance_resume_cases (S.run ⟨w, []⟩ as) i o with heq | ⟨q, c, k, hi, heq⟩
      · rw [heq] at ht
        exact Or.inl (ih ht)
      · rw [heq] at ht
        rcases List.mem_or_eq_of_mem_set ht with ht | rfl
        · exact Or.inl (ih ht)
        · exact Or.inl (ih (t := ⟨q, await c k⟩) (List.mem_of_getElem? hi))

theorem request_mem_arrivals_of_trace {w : σ} {as : List (Action ω ι β)}
    {e : Occurrence C R ε ι} (he : e ∈ S.trace ⟨w, []⟩ as) : e.request ∈ arrivals as := by
  obtain ⟨bs, a, cs, o, rfl, hcall, -⟩ := performed_of_mem_trace he
  obtain ⟨q, c, k, o, hi, heq, -⟩ := exists_of_advance_eq_some hcall
  have harrived := request_mem_arrivals (List.mem_of_getElem? hi)
  rw [arrivals_append]
  rw [heq]
  exact List.mem_append_left _ harrived

/-! ## The answers behind a call -/

/-- The answers that task `i`, serving `q`, has got in a trace. -/
def Heard (es : List (Occurrence C R ε ι)) (i : ℕ) (q : ι) (c : C) (r : Except ε (R c)) : Prop :=
  ⟨i, q, c, r⟩ ∈ es

theorem Heard.mono {es es' : List (Occurrence C R ε ι)} {i : ℕ} {q : ι} {c : C}
    {r : Except ε (R c)} (h : Heard es i q c r) : Heard (es ++ es') i q c r :=
  List.mem_append_left es' h

section Computed

variable {Φ : ((c : C) → Except ε (R c) → Prop) → ι → C → Prop}

/-- What is left of every task keeps to `Φ`, given anything that includes what the task has heard. -/
private theorem follows_run
    (hΦ : ∀ ρ q, Follows ρ (Φ ρ q) (fun _ ↦ True) (S.program q)) (w : σ)
    (as : List (Action ω ι β)) {i : ℕ} {q : ι} {t : Async C R ε α}
    (hi : (S.run ⟨w, []⟩ as).tasks[i]? = some ⟨q, t⟩)
    (ρ : (c : C) → Except ε (R c) → Prop)
    (hρ : ∀ c r, Heard (S.trace ⟨w, []⟩ as) i q c r → ρ c r) :
    Follows ρ (Φ ρ q) (fun _ ↦ True) t := by
  -- On the moves of the run; an answer that comes in is among those that have been heard.
  refine run_trace_inv (I := fun es p ↦ ∀ i q t, p.tasks[i]? = some ⟨q, t⟩ →
    ∀ ρ : (c : C) → Except ε (R c) → Prop, (∀ c r, Heard es i q c r → ρ c r) →
      Follows ρ (Φ ρ q) (fun _ ↦ True) t) ?_ ?_ as i q t hi ρ hρ
  · intro es p a hp i q t hi ρ hρ
    have hpast : ∀ c r, Heard es i q c r → ρ c r := fun c r h ↦ hρ c r h.mono
    cases a with
    | spawn q' =>
      rcases task_of_append hi with hi | ht
      · exact hp i q t hi ρ hpast
      · obtain ⟨rfl, rfl⟩ := Task.mk.inj ht
        exact hΦ ρ q
    | env b => exact hp i q t hi ρ hpast
    | resume n o =>
      rcases S.advance_resume_cases p n o with heq | ⟨q', c, k, hn, heq⟩
      · rw [heq] at hi
        exact hp i q t hi ρ hpast
      · rw [heq] at hi hρ
        rcases task_of_set hi with ⟨rfl, ht⟩ | ⟨-, hi⟩
        · obtain ⟨rfl, rfl⟩ := Task.mk.inj ht
          have hstep := hp i q _ hn ρ hpast
          refine hstep.2 _ (hρ _ _ ?_)
          exact List.mem_append_right _ (List.mem_singleton_self _)
        · exact hp i q t hi ρ hpast
  · intro i q t hi
    exact absurd hi (by simp)

/-- Every call of a run is in `Φ`, with what its task had heard before. -/
theorem computed_of_trace
    (hΦ : ∀ ρ q, Follows ρ (Φ ρ q) (fun _ ↦ True) (S.program q)) {w : σ}
    {as : List (Action ω ι β)} {es es' : List (Occurrence C R ε ι)} {e : Occurrence C R ε ι}
    (h : S.trace ⟨w, []⟩ as = es ++ e :: es') :
    Φ (Heard es e.task e.request) e.request e.call := by
  obtain ⟨bs, a, cs, rfl, rfl, hcall, -⟩ := S.trace_split h
  obtain ⟨q, c, k, o, htask, heq, -⟩ := exists_of_advance_eq_some hcall
  rw [heq]
  exact (follows_run hΦ w bs htask _ fun _ _ hr ↦ hr).1

end Computed

end System

/-! ## What a task returns -/

section Concludes

variable {C : Type} {R : C → Type} {ε α σ ω ι β : Type}

/-- The value the program has returned. -/
def value? : Async C R ε α → Option α
  | done a => some a
  | _ => none

/-- What a program returns stands in `ψ` to its last call and the answer to it. -/
def Concludes (ψ : (c : C) → Except ε (R c) → α → Prop) : Async C R ε α → Prop
  | done _ => True
  | fail _ => True
  | await c k => ∀ r, (∀ a, k r = done a → ψ c r a) ∧ Concludes ψ (k r)

theorem Concludes.bind {α' : Type} {ψ : (c : C) → Except ε (R c) → α → Prop} (p : Async C R ε α')
    {f : α' → Async C R ε α} (hf : ∀ a, Concludes ψ (f a)) (hne : ∀ a b, f a ≠ done b) :
    Concludes ψ (p >>= f) := by
  induction p with
  | done a => exact hf a
  | fail e => trivial
  | await c k ih =>
    refine fun r ↦ ⟨fun b hb ↦ ?_, ih r⟩
    change k r >>= f = done b at hb
    cases hk : k r with
    | done a =>
      rw [hk] at hb
      exact absurd hb (hne a b)
    | fail e =>
      rw [hk] at hb
      cases hb
    | await d m =>
      rw [hk] at hb
      cases hb

theorem Concludes.bind_done {α' : Type} {ψ : (c : C) → Except ε (R c) → α → Prop} {f : α' → α}
    {p : Async C R ε α'} (hp : Concludes (fun c r a ↦ ψ c r (f a)) p) :
    Concludes ψ (p >>= fun a ↦ done (f a)) := by
  induction p with
  | done a => trivial
  | fail e => trivial
  | await c k ih =>
    refine fun r ↦ ⟨fun b hb ↦ ?_, ih r (hp r).2⟩
    change (k r >>= fun a ↦ done (f a)) = done b at hb
    cases hk : k r with
    | done a =>
      rw [hk] at hb
      obtain rfl : f a = b := by simpa using hb
      exact (hp r).1 a hk
    | fail e =>
      rw [hk] at hb
      cases hb
    | await d m =>
      rw [hk] at hb
      cases hb

theorem concludes_of_forall {ψ : (c : C) → Except ε (R c) → α → Prop} (h : ∀ c r a, ψ c r a)
    (p : Async C R ε α) : Concludes ψ p := by
  induction p with
  | done a => trivial
  | fail e => trivial
  | await c k ih => exact fun r ↦ ⟨fun a _ ↦ h c r a, ih r⟩

/-- The value that a task has returned. -/
def System.returned? (p : Pool C R ε α σ ι) (i : ℕ) : Option α :=
  p.tasks[i]?.bind fun t ↦ t.rest.value?

theorem System.concludes_run {S : System C R ε α σ ω ι β}
    {ψ : ι → (c : C) → Except ε (R c) → α → Prop} (hψ : ∀ q, Concludes (ψ q) (S.program q)) (w : σ)
    (as : List (Action ω ι β)) :
    ∀ t ∈ (S.run ⟨w, []⟩ as).tasks, Concludes (ψ t.request) t.rest := by
  refine run_inv (I := fun p ↦ ∀ t ∈ p.tasks, Concludes (ψ t.request) t.rest) (fun p a hp ↦ ?_)
    (fun t ht ↦ absurd ht (by simp)) as
  intro t ht
  cases a with
  | spawn q =>
    rcases List.mem_append.mp ht with ht | ht
    · exact hp t ht
    · rw [List.mem_singleton.mp ht]
      exact hψ q
  | env b => exact hp t ht
  | resume i o =>
    rcases S.advance_resume_cases p i o with heq | ⟨q, c, k, hi, heq⟩
    · rw [heq] at ht
      exact hp t ht
    · rw [heq] at ht
      rcases List.mem_or_eq_of_mem_set ht with ht | rfl
      · exact hp t ht
      · exact (hp _ (List.mem_of_getElem? hi) _).2

theorem System.concluded_of_advance {S : System C R ε α σ ω ι β}
    {ψ : ι → (c : C) → Except ε (R c) → α → Prop} (hψ : ∀ q, Concludes (ψ q) (S.program q)) {w : σ}
    {as : List (Action ω ι β)} {a : Action ω ι β} {e : Occurrence C R ε ι} {v : α}
    (he : (S.advance (S.run ⟨w, []⟩ as) a).1 = some e)
    (hv : returned? (S.advance (S.run ⟨w, []⟩ as) a).2 e.task = some v) :
    ψ e.request e.call e.reply v := by
  obtain ⟨q, c, k, o, hi, heq, hnext⟩ := exists_of_advance_eq_some he
  have hlt := (List.getElem?_eq_some_iff.mp hi).1
  rw [hnext, returned?, List.getElem?_set_self hlt, Option.bind_some] at hv
  have hconcludes := concludes_run hψ w as _ (List.mem_of_getElem? hi)
  rw [heq]
  refine (hconcludes _).1 v ?_
  generalize k (S.handler (S.run ⟨w, []⟩ as).world c o).1 = rest at hv
  cases rest with
  | done b => exact congrArg done (Option.some_inj.mp hv)
  | fail _ => cases hv
  | await _ _ => cases hv

end Concludes

end Async
