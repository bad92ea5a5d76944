import PaymentService.Async.History
import PaymentService.Async.Serial

/-!
# Protocols

A protocol says which call may come in a phase and which phase its answer leads to. A program
*obeys* a protocol when, whatever the answers are, it only ever issues a call that may come. That is
a property of its text; what it gives is about every run of a pool: the calls of each task, in the
order in which they were performed and however they were interleaved with those of other tasks, are
a word of the protocol.

Where every answer brings a protocol closer to its end, the words have a bounded length. Then no task
is suspended forever: after that many turns it has finished.
-/

namespace Async

variable {C : Type} {R : C → Type} {ε α β σ ω ι μ Q : Type}

/-! ## Words -/

/-- The phase that an answered call leads to from a phase in which it may come. -/
abbrev Protocol (C : Type) (R : C → Type) (ε Q : Type) : Type :=
  Q → (c : C) → Except ε (R c) → Option Q

namespace Protocol

variable (P : Protocol C R ε Q)

/-- The phase after a list of answered calls, when each of them may come. -/
def follow : Q → List ((c : C) × Except ε (R c)) → Option Q
  | s, [] => some s
  | s, call :: calls => (P s call.1 call.2).bind fun s' ↦ follow s' calls

@[simp] theorem follow_nil (s : Q) : P.follow s [] = some s := rfl

@[simp] theorem follow_cons (s : Q) (call : (c : C) × Except ε (R c))
    (calls : List ((c : C) × Except ε (R c))) :
    P.follow s (call :: calls) = (P s call.1 call.2).bind fun s' ↦ P.follow s' calls := rfl

theorem follow_append (s : Q) (calls calls' : List ((c : C) × Except ε (R c))) :
    P.follow s (calls ++ calls') = (P.follow s calls).bind fun s' ↦ P.follow s' calls' := by
  induction calls generalizing s with
  | nil => rfl
  | cons call calls ih =>
    rw [List.cons_append, follow_cons, follow_cons, Option.bind_assoc]
    exact congrArg _ (funext fun s' ↦ ih s')

theorem follow_split {s s' : Q} {calls calls' : List ((c : C) × Except ε (R c))}
    (h : P.follow s (calls ++ calls') = some s') :
    ∃ m, P.follow s calls = some m ∧ P.follow m calls' = some s' := by
  rw [follow_append] at h
  exact Option.bind_eq_some_iff.mp h

/-- Every answer brings the protocol closer to its end. -/
def Ranked (rank : Q → ℕ) : Prop := ∀ s c r s', P s c r = some s' → rank s' < rank s

/-- The words of a ranked protocol are no longer than the rank of their first phase. -/
theorem length_le_rank {rank : Q → ℕ} (hrank : P.Ranked rank) {s s' : Q}
    {calls : List ((c : C) × Except ε (R c))} (h : P.follow s calls = some s') :
    calls.length + rank s' ≤ rank s := by
  induction calls generalizing s with
  | nil =>
    obtain rfl := Option.some_inj.mp h
    exact Nat.le_of_eq (Nat.zero_add _)
  | cons call calls ih =>
    obtain ⟨m, hstep, hrest⟩ := Option.bind_eq_some_iff.mp h
    have hlt := hrank s call.1 call.2 m hstep
    have hle := ih hrest
    rw [List.length_cons]
    omega

end Protocol

/-! ## Programs that obey -/

/-- Whatever the answers, the program issues only calls that may come. -/
def Obeys (P : Protocol C R ε Q) : Q → Async C R ε α → Prop
  | _, done _ => True
  | _, fail _ => True
  | s, await c k => ∀ r, ∃ s', P s c r = some s' ∧ Obeys P s' (k r)

section Obeys

variable {P : Protocol C R ε Q} {s : Q}

@[simp] theorem obeys_done (a : α) : Obeys P s (done a : Async C R ε α) := trivial

@[simp] theorem obeys_fail (e : ε) : Obeys P s (fail e : Async C R ε α) := trivial

theorem Finished.obeys {p : Async C R ε α} (h : p.Finished) : Obeys P s p := by
  match p, h with
  | done _, _ => trivial
  | fail _, _ => trivial

theorem Obeys.await {c : C} {k : Except ε (R c) → Async C R ε α} {ended : Q}
    (herror : ∀ e, P s c (.error e) = some ended ∧ (k (.error e)).Finished)
    (hok : ∀ v, ∃ s', P s c (.ok v) = some s' ∧ Obeys P s' (k (.ok v))) :
    Obeys P s (Async.await c k) := by
  intro r
  match r with
  | .ok v => exact hok v
  | .error e =>
    obtain ⟨hended, hfinished⟩ := herror e
    exact ⟨ended, hended, hfinished.obeys⟩

theorem Obeys.finished [Nonempty ε] {rank : Q → ℕ} (hrank : P.Ranked rank) {p : Async C R ε α}
    (hp : Obeys P s p) (hs : rank s = 0) : p.Finished := by
  match p, hp with
  | done _, _ => trivial
  | fail _, _ => trivial
  | Async.await c k, hp =>
    obtain ⟨e⟩ := ‹Nonempty ε›
    obtain ⟨s', hstep, -⟩ := hp (.error e)
    have hlt := hrank s c (.error e) s' hstep
    omega

theorem Obeys.bind_done {p : Async C R ε α} (hp : Obeys P s p) (f : α → μ) :
    Obeys P s (p >>= fun a ↦ done (f a)) := by
  induction p generalizing s with
  | done a => trivial
  | fail e => trivial
  | await c k ih =>
    intro r
    obtain ⟨s', hstep, hk⟩ := hp r
    exact ⟨s', hstep, ih r hk⟩

end Obeys

namespace System

variable {S : System C R ε α σ ω ι β}

/-! ## Runs -/

theorem callsOf_append (i : ℕ) (es es' : List (Occurrence C R ε ι)) :
    callsOf i (es ++ es') = callsOf i es ++ callsOf i es' := by
  rw [callsOf, List.filter_append, List.map_append]
  rfl

/-- Where the calls of a task have led, and that what is left of it obeys from there. -/
def Conducts (P : Protocol C R ε Q) (start : ι → Q) (es : List (Occurrence C R ε ι))
    (p : Pool C R ε α σ ι) : Prop :=
  (∀ i t, p.tasks[i]? = some t →
      ∃ s, P.follow (start t.request) (callsOf i es) = some s ∧ Obeys P s t.rest) ∧
    ∀ i, p.tasks.length ≤ i → callsOf i es = []

theorem conducts_advance {P : Protocol C R ε Q} {start : ι → Q}
    (hP : ∀ q, Obeys P (start q) (S.program q)) {es : List (Occurrence C R ε ι)}
    {p : Pool C R ε α σ ι} (h : Conducts P start es p) (a : Action ω ι β) :
    Conducts P start (es ++ (S.advance p a).1.toList) (S.advance p a).2 := by
  obtain ⟨htasks, hnone⟩ := h
  cases a with
  | env b =>
    rw [advance_env, Option.toList_none, List.append_nil]
    exact ⟨htasks, hnone⟩
  | spawn q =>
    rw [advance_spawn, Option.toList_none, List.append_nil]
    refine ⟨fun i t hi ↦ ?_, fun i hi ↦ hnone i ?_⟩
    · rcases Nat.lt_or_ge i p.tasks.length with hlt | hge
      · rw [List.getElem?_append_left hlt] at hi
        exact htasks i t hi
      · -- The new task has made no call yet.
        rw [hnone i hge]
        have hnew : t = ⟨q, S.program q⟩ := by
          rw [List.getElem?_append_right hge] at hi
          exact List.mem_singleton.mp (List.mem_of_getElem? hi)
        rw [hnew]
        exact ⟨start q, rfl, hP q⟩
    · rw [List.length_append] at hi
      omega
  | resume n o =>
    rcases S.advance_resume_cases p n o with heq | ⟨q, c, k, hn, heq⟩
    · rw [heq, Option.toList_none, List.append_nil]
      exact ⟨htasks, hnone⟩
    · have hlt := (List.getElem?_eq_some_iff.mp hn).1
      rw [heq, Option.toList_some]
      refine ⟨fun i t hi ↦ ?_, fun i hi ↦ ?_⟩
      · rw [callsOf_append]
        rcases task_of_set hi with ⟨rfl, rfl⟩ | ⟨hne, hi⟩
        · obtain ⟨s, hs, hobeys⟩ := htasks i _ hn
          obtain ⟨s', hstep, hk⟩ := hobeys (S.handler p.world c o).1
          have hcall : callsOf i [(⟨i, q, c, (S.handler p.world c o).1⟩ : Occurrence C R ε ι)] =
              [⟨c, (S.handler p.world c o).1⟩] := callsOf_cons_self rfl []
          refine ⟨s', ?_, hk⟩
          rw [hcall, P.follow_append, hs, Option.bind_some, P.follow_cons, hstep]
          rfl
        · rw [callsOf_cons_of_ne (Ne.symm hne)]
          simpa [callsOf] using htasks i t hi
      · rw [List.length_set] at hi
        have hne : n ≠ i := by omega
        rw [callsOf_append, hnone i hi, callsOf_cons_of_ne hne]
        rfl

/-- In every run, the calls of each task are a word of the protocol. -/
theorem conducts_run {P : Protocol C R ε Q} {start : ι → Q}
    (hP : ∀ q, Obeys P (start q) (S.program q)) (w : σ) (as : List (Action ω ι β)) :
    Conducts P start (S.trace ⟨w, []⟩ as) (S.run ⟨w, []⟩ as) := by
  have hstart : Conducts P start [] (⟨w, []⟩ : Pool C R ε α σ ι) :=
    ⟨fun i t hi ↦ absurd hi (by simp), fun i _ ↦ rfl⟩
  exact run_trace_inv (I := Conducts P start) (fun _ _ a h ↦ conducts_advance hP h a) hstart as

/-! ## Turns -/

private theorem getElem?_append {γ : Type} {l : List γ} {i : ℕ} {a : γ} (h : l[i]? = some a)
    (l' : List γ) : (l ++ l')[i]? = some a := by
  rw [List.getElem?_append_left (List.getElem?_eq_some_iff.mp h).1, h]

theorem task_of_finished {p : Pool C R ε α σ ι} {i : ℕ} {q : ι} {t : Async C R ε α}
    (hi : p.tasks[i]? = some ⟨q, t⟩) (ht : t.Finished) (as : List (Action ω ι β)) :
    (S.run p as).tasks[i]? = some ⟨q, t⟩ := by
  induction as generalizing p with
  | nil => exact hi
  | cons a as ih =>
    rw [run_cons]
    apply ih
    cases a with
    | spawn q' => exact getElem?_append hi _
    | env b => exact hi
    | resume n o =>
      rcases S.advance_resume_cases p n o with heq | ⟨q', c, k, hn, heq⟩
      · rw [heq]
        exact hi
      · have hne : n ≠ i := by
          rintro rfl
          obtain ⟨-, rfl⟩ := Task.mk.inj (Option.some_inj.mp (hi.symm.trans hn))
          exact ht
        rw [heq]
        exact (List.getElem?_set_ne hne).trans hi

/-- How often a list of moves gives a task its turn. -/
def turnsOf (i : ℕ) : List (Action ω ι β) → ℕ
  | [] => 0
  | .resume n _ :: as => (if n = i then 1 else 0) + turnsOf i as
  | _ :: as => turnsOf i as

/-- A task that obeys a ranked protocol has finished after as many turns as the rank of its phase,
whatever else happens. -/
theorem finished_of_turns [Nonempty ε] {P : Protocol C R ε Q} {rank : Q → ℕ}
    (hrank : P.Ranked rank) {s : Q} {p : Pool C R ε α σ ι} {i : ℕ} {q : ι} {t : Async C R ε α}
    (hi : p.tasks[i]? = some ⟨q, t⟩) (ht : Obeys P s t) {as : List (Action ω ι β)}
    (hturns : rank s ≤ turnsOf i as) :
    ∃ t', (S.run p as).tasks[i]? = some ⟨q, t'⟩ ∧ t'.Finished := by
  -- On the moves: a turn of the task lowers the rank, and the moves of others leave it alone.
  induction as generalizing p s t with
  | nil => exact ⟨t, hi, ht.finished hrank (Nat.le_zero.mp hturns)⟩
  | cons a as ih =>
    rw [run_cons]
    cases a with
    | spawn q' => exact ih (p := (S.advance p (.spawn q')).2) (getElem?_append hi _) ht hturns
    | env b => exact ih (p := (S.advance p (.env b)).2) hi ht hturns
    | resume n o =>
      by_cases hne : n = i
      · subst hne
        rw [turnsOf, if_pos rfl] at hturns
        match t, ht, hi with
        | done a, _, hi => exact ⟨done a, task_of_finished hi trivial (.resume n o :: as), trivial⟩
        | fail e, _, hi => exact ⟨fail e, task_of_finished hi trivial (.resume n o :: as), trivial⟩
        | Async.await c k, ht, hi =>
          obtain ⟨s', hstep, hk⟩ := ht (S.handler p.world c o).1
          have hlt := hrank s c _ s' hstep
          rw [S.advance_resume hi]
          exact ih (List.getElem?_set_self (List.getElem?_eq_some_iff.mp hi).1) hk (by omega)
      · rw [turnsOf, if_neg hne, Nat.zero_add] at hturns
        rcases S.advance_resume_cases p n o with heq | ⟨q', c, k, -, heq⟩
        · rw [heq]
          exact ih hi ht hturns
        · rw [heq]
          exact ih ((List.getElem?_set_ne hne).trans hi) ht hturns

end System

end Async
