import PaymentService.Async.Run

/-!
# Pools of tasks

A server runs many programs over one state. A `System` fixes what a request does (`program`), how
the outside answers calls (`handler`) and what the outside does on its own (`background`). A `Pool`
is the state together with the tasks in flight, and an `Action` is one atomic move of the whole:
a request arrives, one task is resumed with the answer to the call it awaits, or the outside moves.

A list of actions is therefore one interleaving at the await points of any number of requests, and
a statement about all lists of actions is a statement about all of them. Actions that name a task
which is not suspended do nothing, so that every list of actions is a run.

The trace of a run lists the calls that were performed, with the request each was performed for.
-/

namespace Async

/-- What a server does: the program of each request, the answers of the outside, and its own
moves. -/
structure System (C : Type) (R : C → Type) (ε α σ ω ι β : Type) where
  /-- How a call is answered. -/
  handler : Handler C R ε σ ω
  /-- What a request runs. -/
  program : ι → Async C R ε α
  /-- What the outside does between the calls. -/
  background : σ → β → σ

/-- A request in flight: what remains of its program. -/
structure Task (C : Type) (R : C → Type) (ε α ι : Type) where
  /-- The request the task serves. -/
  request : ι
  /-- What is left to run. -/
  rest : Async C R ε α

/-- The shared state and the tasks in flight. -/
structure Pool (C : Type) (R : C → Type) (ε α σ ι : Type) where
  /-- The state the calls act on. -/
  world : σ
  /-- The tasks, in the order in which their requests arrived. -/
  tasks : List (Task C R ε α ι)

/-- One atomic move of a pool. -/
inductive Action (ω ι β : Type) : Type
  /-- A request arrives. -/
  | spawn (q : ι)
  /-- Task number `i` gets its answer and runs to its next await. -/
  | resume (i : ℕ) (o : ω)
  /-- The outside moves. -/
  | env (b : β)

/-- A call that was performed. -/
structure Occurrence (C : Type) (R : C → Type) (ε ι : Type) where
  /-- The number of the task that awaited it. -/
  task : ℕ
  /-- The request that task serves. -/
  request : ι
  /-- The call. -/
  call : C
  /-- Its answer. -/
  reply : Except ε (R call)

/-- Whether an occurrence counts, judged by its request, its call and the answer. -/
def Occurrence.counts {C : Type} {R : C → Type} {ε ι : Type}
    (P : ι → (c : C) → Except ε (R c) → Bool) (e : Occurrence C R ε ι) : Bool :=
  P e.request e.call e.reply

namespace System

variable {C : Type} {R : C → Type} {ε α σ ω ι β : Type} (S : System C R ε α σ ω ι β)

/-! ## One move -/

/-- One move of the pool, with the call it performed, if any. -/
def advance (p : Pool C R ε α σ ι) : Action ω ι β → Option (Occurrence C R ε ι) × Pool C R ε α σ ι
  | .spawn q => (none, ⟨p.world, p.tasks ++ [⟨q, S.program q⟩]⟩)
  | .env b => (none, ⟨S.background p.world b, p.tasks⟩)
  | .resume i o =>
    match p.tasks[i]? with
    | some ⟨q, await c k⟩ =>
      (some ⟨i, q, c, (S.handler p.world c o).1⟩,
        ⟨(S.handler p.world c o).2, p.tasks.set i ⟨q, k (S.handler p.world c o).1⟩⟩)
    | _ => (none, p)

@[simp] theorem advance_spawn (p : Pool C R ε α σ ι) (q : ι) :
    S.advance p (.spawn q) = (none, ⟨p.world, p.tasks ++ [⟨q, S.program q⟩]⟩) := rfl

@[simp] theorem advance_env (p : Pool C R ε α σ ι) (b : β) :
    S.advance p (.env b) = (none, ⟨S.background p.world b, p.tasks⟩) := rfl

theorem advance_resume {p : Pool C R ε α σ ι} {i : ℕ} {q : ι} {c : C}
    {k : Except ε (R c) → Async C R ε α} (hi : p.tasks[i]? = some ⟨q, await c k⟩) (o : ω) :
    S.advance p (.resume i o) =
      (some ⟨i, q, c, (S.handler p.world c o).1⟩,
        ⟨(S.handler p.world c o).2, p.tasks.set i ⟨q, k (S.handler p.world c o).1⟩⟩) := by
  simp only [advance, hi]

/-- Everything that resuming a task can do: nothing, when it is not suspended, or its call. -/
theorem advance_resume_cases (p : Pool C R ε α σ ι) (i : ℕ) (o : ω) :
    S.advance p (.resume i o) = (none, p) ∨
      ∃ q c k, p.tasks[i]? = some ⟨q, await c k⟩ ∧
        S.advance p (.resume i o) =
          (some ⟨i, q, c, (S.handler p.world c o).1⟩,
            ⟨(S.handler p.world c o).2, p.tasks.set i ⟨q, k (S.handler p.world c o).1⟩⟩) := by
  rcases hi : p.tasks[i]? with _ | ⟨q, t⟩
  · left
    simp only [advance, hi]
  · cases t with
    | done a => left; simp only [advance, hi]
    | fail e => left; simp only [advance, hi]
    | await c k => exact Or.inr ⟨q, c, k, rfl, S.advance_resume hi o⟩

theorem task_of_append {ts : List (Task C R ε α ι)} {t t' : Task C R ε α ι} {i : ℕ}
    (hi : (ts ++ [t'])[i]? = some t) : ts[i]? = some t ∨ t = t' := by
  rw [List.getElem?_append] at hi
  split at hi
  · exact Or.inl hi
  · exact Or.inr (List.mem_singleton.mp (List.mem_of_getElem? hi))

theorem task_of_set {ts : List (Task C R ε α ι)} {t t' : Task C R ε α ι} {i m : ℕ}
    (hm : (ts.set i t')[m]? = some t) : m = i ∧ t = t' ∨ m ≠ i ∧ ts[m]? = some t := by
  by_cases hmi : m = i
  · subst hmi
    have hlt : m < ts.length := by
      have hset := (List.getElem?_eq_some_iff.mp hm).1
      rwa [List.length_set] at hset
    rw [List.getElem?_set_self hlt] at hm
    exact Or.inl ⟨rfl, (Option.some_inj.mp hm).symm⟩
  · rw [List.getElem?_set_ne (Ne.symm hmi)] at hm
    exact Or.inr ⟨hmi, hm⟩

/-! ## Runs -/

/-- The pool after a list of moves. -/
def run (p : Pool C R ε α σ ι) (as : List (Action ω ι β)) : Pool C R ε α σ ι :=
  as.foldl (fun p a ↦ (S.advance p a).2) p

/-- The calls a list of moves performs. -/
def trace : Pool C R ε α σ ι → List (Action ω ι β) → List (Occurrence C R ε ι)
  | _, [] => []
  | p, a :: as => (S.advance p a).1.toList ++ trace (S.advance p a).2 as

@[simp] theorem run_nil (p : Pool C R ε α σ ι) : S.run p [] = p := rfl

@[simp] theorem run_cons (p : Pool C R ε α σ ι) (a : Action ω ι β) (as : List (Action ω ι β)) :
    S.run p (a :: as) = S.run (S.advance p a).2 as := rfl

theorem run_append (p : Pool C R ε α σ ι) (as bs : List (Action ω ι β)) :
    S.run p (as ++ bs) = S.run (S.run p as) bs := List.foldl_append

@[simp] theorem trace_nil (p : Pool C R ε α σ ι) : S.trace p [] = [] := rfl

@[simp] theorem trace_cons (p : Pool C R ε α σ ι) (a : Action ω ι β)
    (as : List (Action ω ι β)) :
    S.trace p (a :: as) = (S.advance p a).1.toList ++ S.trace (S.advance p a).2 as := rfl

theorem trace_append (p : Pool C R ε α σ ι) (as bs : List (Action ω ι β)) :
    S.trace p (as ++ bs) = S.trace p as ++ S.trace (S.run p as) bs := by
  induction as generalizing p with
  | nil => rfl
  | cons a as ih => rw [List.cons_append, trace_cons, ih, trace_cons, run_cons, List.append_assoc]

/-- A run that performs a given call splits at it. -/
theorem trace_split {p : Pool C R ε α σ ι} {as : List (Action ω ι β)}
    {es es' : List (Occurrence C R ε ι)} {e : Occurrence C R ε ι}
    (h : S.trace p as = es ++ e :: es') :
    ∃ bs a cs, as = bs ++ a :: cs ∧ S.trace p bs = es ∧ (S.advance (S.run p bs) a).1 = some e ∧
      S.trace (S.advance (S.run p bs) a).2 cs = es' := by
  -- Moves that perform no call come before the one that is looked for.
  induction as generalizing p es with
  | nil => exact absurd h (by simp)
  | cons a as ih =>
    rw [trace_cons] at h
    rcases hcall : (S.advance p a).1 with _ | e₀
    · rw [hcall, Option.toList_none, List.nil_append] at h
      obtain ⟨bs, a', cs, rfl, hbs, hcall', hcs⟩ := ih h
      refine ⟨a :: bs, a', cs, rfl, ?_, hcall', hcs⟩
      rw [trace_cons, hcall, Option.toList_none, List.nil_append, hbs]
    · rw [hcall, Option.toList_some, List.singleton_append] at h
      cases es with
      | nil =>
        obtain ⟨rfl, hrest⟩ := List.cons.inj h
        exact ⟨[], a, as, rfl, rfl, hcall, hrest⟩
      | cons e₁ es =>
        obtain ⟨rfl, hrest⟩ := List.cons.inj h
        obtain ⟨bs, a', cs, rfl, hbs, hcall', hcs⟩ := ih hrest
        refine ⟨a :: bs, a', cs, rfl, ?_, hcall', hcs⟩
        rw [trace_cons, hcall, Option.toList_some, List.singleton_append, hbs]

variable {S}

/-- What every move keeps, as long as the calls it performs are in `ψ`, every run keeps whose calls
are all in `ψ`. -/
theorem run_inv_of_trace {I : Pool C R ε α σ ι → Prop} {ψ : Occurrence C R ε ι → Prop}
    (hI : ∀ p a, I p → (∀ e ∈ (S.advance p a).1, ψ e) → I (S.advance p a).2)
    {p : Pool C R ε α σ ι} (hp : I p) (as : List (Action ω ι β))
    (hψ : ∀ e ∈ S.trace p as, ψ e) : I (S.run p as) := by
  induction as generalizing p with
  | nil => exact hp
  | cons a as ih =>
    rw [trace_cons] at hψ
    refine ih (hI p a hp fun e he ↦ hψ e ?_) fun e he ↦ hψ e (List.mem_append_right _ he)
    exact List.mem_append_left _ (Option.mem_toList.mpr he)

theorem run_inv {I : Pool C R ε α σ ι → Prop} (hI : ∀ p a, I p → I (S.advance p a).2)
    {p : Pool C R ε α σ ι} (hp : I p) (as : List (Action ω ι β)) : I (S.run p as) :=
  run_inv_of_trace (ψ := fun _ ↦ True) (fun p a hp _ ↦ hI p a hp) hp as fun _ _ ↦ trivial

/-- The requests that arrive in a list of moves. -/
def arrivals : List (Action ω ι β) → List ι
  | [] => []
  | .spawn q :: as => q :: arrivals as
  | _ :: as => arrivals as

theorem arrivals_append (as bs : List (Action ω ι β)) :
    arrivals (as ++ bs) = arrivals as ++ arrivals bs := by
  induction as with
  | nil => rfl
  | cons a as ih => cases a <;> simp [arrivals, ih]

/-- In a run in which no request arrives, only the calls and the outside have to be checked. -/
theorem run_inv_of_no_arrivals {I : Pool C R ε α σ ι → Prop} {ψ : Occurrence C R ε ι → Prop}
    (hcall : ∀ {p i q c k} o, I p → p.tasks[i]? = some ⟨q, await c k⟩ →
      ψ ⟨i, q, c, (S.handler p.world c o).1⟩ →
        I ⟨(S.handler p.world c o).2, p.tasks.set i ⟨q, k (S.handler p.world c o).1⟩⟩)
    (hback : ∀ {p} b, I p → I ⟨S.background p.world b, p.tasks⟩)
    {p : Pool C R ε α σ ι} (hp : I p) {as : List (Action ω ι β)} (has : arrivals as = [])
    (hψ : ∀ e ∈ S.trace p as, ψ e) : I (S.run p as) := by
  induction as generalizing p with
  | nil => exact hp
  | cons a as ih =>
    cases a with
    | spawn q => exact absurd has (by simp [arrivals])
    | env b => exact ih (hback b hp) has hψ
    | resume i o =>
      rw [run_cons]
      rw [trace_cons] at hψ
      rcases S.advance_resume_cases p i o with heq | ⟨q, c, k, hi, heq⟩
      · rw [heq] at hψ ⊢
        exact ih hp has hψ
      · rw [heq] at hψ ⊢
        have hfirst := hψ _ (List.mem_append_left _ (List.mem_singleton_self _))
        exact ih (hcall o hp hi hfirst) has fun e he ↦ hψ e (List.mem_append_right _ he)

/-- A task that made no call is as it was. -/
theorem task_of_no_calls {p : Pool C R ε α σ ι} {i : ℕ} {t : Task C R ε α ι}
    (hi : p.tasks[i]? = some t) {as : List (Action ω ι β)} (hno : ∀ e ∈ S.trace p as, e.task ≠ i) :
    (S.run p as).tasks[i]? = some t := by
  refine run_inv_of_trace (I := fun p ↦ p.tasks[i]? = some t) (fun p a hp hcall ↦ ?_) hi as hno
  cases a with
  | spawn q => exact List.getElem?_append_left (List.getElem?_eq_some_iff.mp hp).1 ▸ hp
  | env b => exact hp
  | resume n o =>
    rcases S.advance_resume_cases p n o with heq | ⟨q, c, k, -, heq⟩
    · rw [heq]
      exact hp
    · rw [heq] at hcall ⊢
      have hne : n ≠ i := hcall _ rfl
      rw [List.getElem?_set_ne hne]
      exact hp

theorem exists_of_advance_eq_some {p : Pool C R ε α σ ι} {a : Action ω ι β}
    {e : Occurrence C R ε ι} (h : (S.advance p a).1 = some e) :
    ∃ q c k o, p.tasks[e.task]? = some ⟨q, await c k⟩ ∧
      e = ⟨e.task, q, c, (S.handler p.world c o).1⟩ ∧
      (S.advance p a).2 =
        ⟨(S.handler p.world c o).2,
          p.tasks.set e.task ⟨q, k (S.handler p.world c o).1⟩⟩ := by
  cases a with
  | spawn q => exact absurd h (by simp)
  | env b => exact absurd h (by simp)
  | resume i o =>
    rcases S.advance_resume_cases p i o with heq | ⟨q, c, k, hi, heq⟩
    · rw [heq] at h
      exact absurd h (by simp)
    · rw [heq] at h ⊢
      obtain rfl := Option.some_inj.mp h
      exact ⟨q, c, k, o, hi, rfl, rfl⟩

/-! ## Contracts

A `Contract` is a rely-guarantee argument about the whole system. What the programs may rely on and
have to guarantee depends on the state, and states evolve: an answer that could be relied on once
can be relied on from then on. Everything is checked call by call; what it gives holds at every
moment of every run. -/

/-- An invariant and an order on states that the calls respect, together with the contracts of the
programs. -/
structure Contract (S : System C R ε α σ ω ι β) where
  /-- The invariant of the state. -/
  inv : σ → Prop
  /-- The second state can come after the first. -/
  evolves : σ → σ → Prop
  /-- The answers the programs rely on. -/
  rely : σ → (c : C) → Except ε (R c) → Prop
  /-- The calls a request may issue. -/
  guarantee : σ → ι → C → Prop
  evolves_refl : ∀ w, evolves w w
  evolves_trans : ∀ {w w' w''}, evolves w w' → evolves w' w'' → evolves w w''
  rely_mono : ∀ {w w' c r}, evolves w w' → rely w c r → rely w' c r
  keeps : ∀ {w q c} o, inv w → guarantee w q c →
    inv (S.handler w c o).2 ∧ evolves w (S.handler w c o).2
  answers : ∀ {w q c} o, inv w → guarantee w q c → rely w c (S.handler w c o).1
  background : ∀ {w} b, inv w → inv (S.background w b) ∧ evolves w (S.background w b)
  program : ∀ w q, Follows (rely w) (guarantee w q) (fun _ ↦ True) (S.program q)

namespace Contract

variable (K : Contract S)

/-- What is left of a task is within its contract, now and whenever it is resumed. -/
def Within (w : σ) (t : Task C R ε α ι) : Prop :=
  ∀ w', K.evolves w w' → Follows (K.rely w') (K.guarantee w' t.request) (fun _ ↦ True) t.rest

/-- The invariant holds and every task is within its contract. -/
def Holds (p : Pool C R ε α σ ι) : Prop := K.inv p.world ∧ ∀ t ∈ p.tasks, K.Within p.world t

variable {K}

theorem Within.mono {w w' : σ} {t : Task C R ε α ι} (h : K.Within w t) (hw : K.evolves w w') :
    K.Within w' t := by
  intro w'' hw''
  exact h w'' (K.evolves_trans hw hw'')

theorem holds_start {w : σ} (hw : K.inv w) : K.Holds ⟨w, []⟩ :=
  ⟨hw, fun t ht ↦ absurd ht (by simp)⟩

theorem Holds.guarantee {p : Pool C R ε α σ ι} (hp : K.Holds p) {i : ℕ} {q : ι} {c : C}
    {k : Except ε (R c) → Async C R ε α} (hi : p.tasks[i]? = some ⟨q, await c k⟩) :
    K.guarantee p.world q c := by
  have hwithin := hp.2 _ (List.mem_of_getElem? hi)
  exact (hwithin p.world (K.evolves_refl _)).1

theorem holds_advance {p : Pool C R ε α σ ι} (hp : K.Holds p) (a : Action ω ι β) :
    K.Holds (S.advance p a).2 := by
  have hworld := hp.1
  have htasks := hp.2
  cases a with
  | spawn q =>
    refine ⟨hworld, fun t ht ↦ ?_⟩
    rcases List.mem_append.mp ht with ht | ht
    · exact htasks t ht
    · rw [List.mem_singleton] at ht
      rw [ht]
      intro w' _
      exact K.program w' q
  | env b =>
    have hback := K.background b hworld
    exact ⟨hback.1, fun t ht ↦ (htasks t ht).mono hback.2⟩
  | resume i o =>
    rcases S.advance_resume_cases p i o with heq | ⟨q, c, k, hi, heq⟩
    · rw [heq]
      exact ⟨hworld, htasks⟩
    · have hguarantee := hp.guarantee hi
      have hkeeps := K.keeps o hworld hguarantee
      have hanswer := K.answers o hworld hguarantee
      rw [heq]
      refine ⟨hkeeps.1, fun t ht ↦ ?_⟩
      rcases List.mem_or_eq_of_mem_set ht with ht | ht
      · exact (htasks t ht).mono hkeeps.2
      · rw [ht]
        intro w' hw'
        -- The answer stays reliable however the state has evolved when the task goes on.
        have hevolves := K.evolves_trans hkeeps.2 hw'
        have hwithin := htasks _ (List.mem_of_getElem? hi) w' hevolves
        exact hwithin.2 _ (K.rely_mono hevolves hanswer)

theorem holds_run {p : Pool C R ε α σ ι} (hp : K.Holds p) (as : List (Action ω ι β)) :
    K.Holds (S.run p as) :=
  run_inv (I := K.Holds) (fun _ a hp ↦ holds_advance hp a) hp as

/-- The state at the end of a run has evolved from the one at its start. -/
theorem evolves_run {p : Pool C R ε α σ ι} (hp : K.Holds p) (as : List (Action ω ι β)) :
    K.evolves p.world (S.run p as).world := by
  have hstep : ∀ (p : Pool C R ε α σ ι) (a : Action ω ι β), K.Holds p →
      K.evolves p.world (S.advance p a).2.world := by
    intro p a hp
    cases a with
    | spawn q => exact K.evolves_refl _
    | env b => exact (K.background b hp.1).2
    | resume i o =>
      rcases S.advance_resume_cases p i o with heq | ⟨q, c, k, hi, heq⟩
      · rw [heq]
        exact K.evolves_refl _
      · rw [heq]
        exact (K.keeps o hp.1 (hp.guarantee hi)).2
  induction as generalizing p with
  | nil => exact K.evolves_refl _
  | cons a as ih => exact K.evolves_trans (hstep p a hp) (ih (holds_advance hp a))

/-- Every call of a run was allowed to its request, and got an answer that could be relied on. -/
theorem of_mem_trace {p : Pool C R ε α σ ι} (hp : K.Holds p) (as : List (Action ω ι β))
    {e : Occurrence C R ε ι} (he : e ∈ S.trace p as) :
    ∃ w, K.inv w ∧ K.guarantee w e.request e.call ∧ K.rely w e.call e.reply := by
  induction as generalizing p with
  | nil => exact absurd he (by simp)
  | cons a as ih =>
    rw [trace_cons, List.mem_append] at he
    rcases he with he | he
    · cases a with
      | spawn q => exact absurd he (by simp)
      | env b => exact absurd he (by simp)
      | resume i o =>
        rcases S.advance_resume_cases p i o with heq | ⟨q, c, k, hi, heq⟩
        · rw [heq] at he
          exact absurd he (by simp)
        · rw [heq] at he
          obtain rfl := Option.some_inj.mp (Option.mem_toList.mp he)
          have hguarantee := hp.guarantee hi
          exact ⟨p.world, hp.1, hguarantee, K.answers o hp.1 hguarantee⟩
    · exact ih (holds_advance hp a) he

end Contract

end System

end Async
