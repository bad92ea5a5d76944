import PaymentService.Async.Pool

/-!
# Serial runs

When do two tasks that interleave come to the same as one after the other? Calls are *independent*
when the later one could as well have gone first: both get the answers they got, and the states that
result cannot be told apart by any call. If no call of the second task is followed by a call of the
first that depends on it, the first task can be pulled to the front call by call, and the run is the
serial one.

Which states can be told apart is the `Congruence`; it lets the order of effects that nobody reads be
forgotten.
-/

namespace Async

variable {C : Type} {R : C → Type} {ε α σ ω ι β : Type}

/-! ## The calls of one program -/

/-- The calls a program performs, with their answers. -/
def calls (h : Handler C R ε σ ω) : Async C R ε α → List ω → σ → List ((c : C) × Except ε (R c))
  | await c k, o :: os, w => ⟨c, (h w c o).1⟩ :: calls h (k (h w c o).1) os (h w c o).2
  | _, _, _ => []

section calls

variable (h : Handler C R ε σ ω)

@[simp] theorem calls_nil (p : Async C R ε α) (w : σ) : calls h p [] w = [] := by
  cases p <;> rfl

@[simp] theorem calls_done (a : α) (os : List ω) (w : σ) :
    calls h (done a : Async C R ε α) os w = [] := by
  cases os <;> rfl

@[simp] theorem calls_fail (e : ε) (os : List ω) (w : σ) :
    calls h (fail e : Async C R ε α) os w = [] := by
  cases os <;> rfl

@[simp] theorem calls_await_cons (c : C) (k : Except ε (R c) → Async C R ε α) (o : ω)
    (os : List ω) (w : σ) :
    calls h (await c k) (o :: os) w =
      ⟨c, (h w c o).1⟩ :: calls h (k (h w c o).1) os (h w c o).2 := rfl

end calls

/-- The choices of a list, and then any. -/
def stream [Inhabited ω] (os : List ω) : ℕ → ω := fun n ↦ os.getD n default

theorem world_of_exec [Inhabited ω] {h : Handler C R ε σ ω} {p : Async C R ε α} {os : List ω}
    {w : σ} (hfin : (exec h p os w).1.Finished) :
    (run h p (stream os) w).2 = (exec h p os w).2 := by
  have hrun : run h p (stream os) w = run h (exec h p os w).1 (stream os) (exec h p os w).2 := by
    apply run_of_exec h rfl hfin
    intro n hn
    simp [stream, hn]
  rw [hrun]
  cases hp : (exec h p os w).1 with
  | done a => rfl
  | fail e => rfl
  | await c k => exact absurd hfin (by rw [hp]; exact id)

/-! ## Independent calls -/

/-- States that no call can tell apart. -/
structure Congruence (h : Handler C R ε σ ω) where
  rel : σ → σ → Prop
  refl : ∀ w, rel w w
  trans : ∀ {w w' w''}, rel w w' → rel w' w'' → rel w w''
  step : ∀ {w w'} c o, rel w w' →
    (h w c o).1 = (h w' c o).1 ∧ rel (h w c o).2 (h w' c o).2

theorem Congruence.exec {h : Handler C R ε σ ω} (K : Congruence h) {w w' : σ} (hw : K.rel w w')
    (p : Async C R ε α) (os : List ω) :
    (exec h p os w).1 = (exec h p os w').1 ∧ K.rel (exec h p os w).2 (exec h p os w').2 ∧
      calls h p os w = calls h p os w' := by
  induction os generalizing p w w' with
  | nil => simpa using hw
  | cons o os ih =>
    cases p with
    | done a => simpa using hw
    | fail e => simpa using hw
    | await c k =>
      obtain ⟨hreply, hrel⟩ := K.step c o hw
      obtain ⟨hrest, hend, hcalls⟩ := ih hrel (k (h w c o).1)
      simp only [exec_await_cons, calls_await_cons, ← hreply]
      exact ⟨hrest, hend, by rw [hcalls]⟩

/-- Calls, with their answers, of which the second could as well have gone first. -/
structure Independence {h : Handler C R ε σ ω} (K : Congruence h) where
  indep : (d : C) → Except ε (R d) → (c : C) → Except ε (R c) → Prop
  swap : ∀ {w d o c o'}, indep d (h w d o).1 c (h (h w d o).2 c o').1 →
    (h w c o').1 = (h (h w d o).2 c o').1 ∧ (h (h w c o').2 d o).1 = (h w d o).1 ∧
      K.rel (h (h w d o).2 c o').2 (h (h w c o').2 d o).2

/-- A call that all calls of a program are independent of can be put after the program. -/
theorem Independence.exec_swap {h : Handler C R ε σ ω} {K : Congruence h} (I : Independence K)
    {w : σ} {d : C} {o : ω} {p : Async C R ε α} {os : List ω}
    (hind : ∀ e ∈ calls h p os (h w d o).2, I.indep d (h w d o).1 e.1 e.2) :
    (exec h p os w).1 = (exec h p os (h w d o).2).1 ∧
      calls h p os w = calls h p os (h w d o).2 ∧
      (h (exec h p os w).2 d o).1 = (h w d o).1 ∧
      K.rel (exec h p os (h w d o).2).2 (h (exec h p os w).2 d o).2 := by
  -- On the choices of the program: the call is put after one call of it at a time.
  induction os generalizing p w with
  | nil => simpa using K.refl _
  | cons o' os ih =>
    cases p with
    | done a => simpa using K.refl _
    | fail e => simpa using K.refl _
    | await c k =>
      rw [calls_await_cons] at hind
      have hfirst := hind _ List.mem_cons_self
      obtain ⟨hreply, hsame, hrel⟩ := I.swap hfirst
      -- From here on the states differ, but not for a call.
      obtain ⟨hrest, hend, hcalls⟩ := K.exec hrel (k (h (h w d o).2 c o').1) os
      have hind' : ∀ e ∈ calls h (k (h (h w d o).2 c o').1) os (h (h w c o').2 d o).2,
          I.indep d (h (h w c o').2 d o).1 e.1 e.2 := by
        intro e he
        rw [hsame]
        rw [← hcalls] at he
        exact hind e (List.mem_cons_of_mem _ he)
      obtain ⟨h1, h2, h3, h4⟩ := ih hind'
      simp only [exec_await_cons, calls_await_cons, hreply]
      refine ⟨h1.trans hrest.symm, ?_, h3.trans hsame, K.trans hend h4⟩
      rw [h2, hcalls]

/-! ## The order of the calls of one program -/

/-- Whatever is answered, a later call of the program stands in the relation to every earlier
one. -/
def Ordered (r : C → C → Prop) : Async C R ε α → Prop
  | done _ => True
  | fail _ => True
  | await c k => ∀ a, Always (r c) (k a) ∧ Ordered r (k a)

theorem Ordered.of_always {r : C → C → Prop} {φ : C → Prop} (h : ∀ c d, φ c → φ d → r c d)
    {p : Async C R ε α} (hp : Always φ p) : Ordered r p := by
  induction p with
  | done a => trivial
  | fail e => trivial
  | await c k ih =>
    intro a
    have hrest := hp.2 a trivial
    exact ⟨hrest.mono (fun d hd ↦ h c d hp.1 hd) fun _ ↦ id, ih a hrest⟩

theorem Ordered.bind_done {γ : Type} {r : C → C → Prop} {p : Async C R ε α} (hp : Ordered r p)
    (f : α → γ) : Ordered r (p >>= fun a ↦ done (f a)) := by
  induction p with
  | done a => trivial
  | fail e => trivial
  | await c k ih =>
    intro a
    have hrest : Always (r c) (k a >>= fun a ↦ done (f a)) := (hp a).1.bind fun _ _ ↦ trivial
    exact ⟨hrest, ih a (hp a).2⟩

namespace System

variable {S : System C R ε α σ ω ι β}

/-! ## Two tasks in turns -/

/-- The moves of a schedule, which says which task goes on and with which choice. -/
def turns (s : List (ℕ × ω)) : List (Action ω ι β) := s.map fun t ↦ .resume t.1 t.2

/-- The choices a schedule has for one task. -/
def choicesOf (i : ℕ) (s : List (ℕ × ω)) : List ω := (s.filter (·.1 = i)).map (·.2)

/-- The calls of one task in a trace. -/
def callsOf (i : ℕ) (es : List (Occurrence C R ε ι)) : List ((c : C) × Except ε (R c)) :=
  (es.filter (·.task = i)).map fun e ↦ ⟨e.call, e.reply⟩

@[simp] theorem turns_cons (t : ℕ × ω) (s : List (ℕ × ω)) :
    (turns (t :: s) : List (Action ω ι β)) = .resume t.1 t.2 :: turns s := rfl

theorem choicesOf_cons_self (i : ℕ) (o : ω) (s : List (ℕ × ω)) :
    choicesOf i ((i, o) :: s) = o :: choicesOf i s := by
  simp [choicesOf]

theorem choicesOf_cons_of_ne {i j : ℕ} (hij : j ≠ i) (o : ω) (s : List (ℕ × ω)) :
    choicesOf i ((j, o) :: s) = choicesOf i s := by
  simp [choicesOf, hij]

theorem callsOf_cons_self {i : ℕ} {e : Occurrence C R ε ι} (hi : e.task = i)
    (es : List (Occurrence C R ε ι)) :
    callsOf i (e :: es) = ⟨e.call, e.reply⟩ :: callsOf i es := by
  simp [callsOf, hi]

theorem callsOf_cons_of_ne {i : ℕ} {e : Occurrence C R ε ι} (hi : e.task ≠ i)
    (es : List (Occurrence C R ε ι)) : callsOf i (e :: es) = callsOf i es := by
  simp [callsOf, hi]

theorem advance_resume_of_finished {p : Pool C R ε α σ ι} {i : ℕ} {q : ι} {t : Async C R ε α}
    (hi : p.tasks[i]? = some ⟨q, t⟩) (ht : t.Finished) (o : ω) :
    S.advance p (.resume i o) = (none, p) := by
  rcases S.advance_resume_cases p i o with heq | ⟨q', c, k, hi', -⟩
  · exact heq
  · rw [hi] at hi'
    cases hi'
    exact absurd ht id

/-- What a task is to keep to, its calls in a trace keep to. -/
theorem of_mem_trace_turns {φ : C → Prop} {i : ℕ} {q : ι} {t : Async C R ε α}
    {p : Pool C R ε α σ ι} (hi : p.tasks[i]? = some ⟨q, t⟩) (ht : Always φ t)
    (s : List (ℕ × ω)) {e : Occurrence C R ε ι} (he : e ∈ S.trace p (turns s))
    (htask : e.task = i) : φ e.call := by
  induction s generalizing p t with
  | nil => exact absurd he (by simp [turns])
  | cons move s ih =>
    obtain ⟨n, o⟩ := move
    rw [turns_cons, trace_cons, List.mem_append] at he
    rcases S.advance_resume_cases p n o with heq | ⟨q', c, k, hn, heq⟩
    · rw [heq] at he
      rcases he with he | he
      · exact absurd he (by simp)
      · exact ih hi ht he
    · have hlt := (List.getElem?_eq_some_iff.mp hn).1
      rw [heq] at he
      by_cases hni : n = i
      · subst hni
        obtain ⟨rfl, rfl⟩ : q' = q ∧ await c k = t := by simpa using hn.symm.trans hi
        rcases he with he | he
        · obtain rfl := Option.some_inj.mp (Option.mem_toList.mp he)
          exact ht.1
        · exact ih (p := ⟨_, p.tasks.set n _⟩) (List.getElem?_set_self hlt) (ht.2 _ trivial) he
      · rcases he with he | he
        · obtain rfl := Option.some_inj.mp (Option.mem_toList.mp he)
          exact absurd htask hni
        · refine ih (p := ⟨_, p.tasks.set n _⟩) ?_ ht he
          rw [List.getElem?_set_ne hni]
          exact hi

theorem pairwise_trace_turns {r : C → C → Prop} {p : Pool C R ε α σ ι}
    (hp : ∀ t ∈ p.tasks, Ordered r t.rest) (s : List (ℕ × ω)) :
    (S.trace p (turns s)).Pairwise fun f e ↦ f.task = e.task → r f.call e.call := by
  induction s generalizing p with
  | nil => exact .nil
  | cons move s ih =>
    obtain ⟨n, o⟩ := move
    rw [turns_cons, trace_cons]
    rcases S.advance_resume_cases p n o with heq | ⟨q, c, k, hn, heq⟩
    · rw [heq]
      exact ih hp
    · have hlt := (List.getElem?_eq_some_iff.mp hn).1
      have hordered : Ordered r (await c k) := hp _ (List.mem_of_getElem? hn)
      rw [heq, Option.toList_some, List.singleton_append]
      refine List.pairwise_cons.mpr ⟨fun e he htask ↦ ?_, ih fun t ht ↦ ?_⟩
      · exact of_mem_trace_turns (p := ⟨_, p.tasks.set n _⟩) (List.getElem?_set_self hlt)
          (hordered _).1 s he htask.symm
      · rcases List.mem_or_eq_of_mem_set ht with ht | rfl
        · exact hp t ht
        · exact (hordered _).2

/-- Two tasks in turns: if no call of task `j` is followed by a call of task `i` that depends on it,
each task is left as when task `i` had gone first and task `j` after it, and no call can tell the
state from the one that this leaves. -/
theorem run_serial {K : Congruence S.handler} (I : Independence K) {i j : ℕ} (hij : i ≠ j)
    {qi qj : ι} {s : List (ℕ × ω)} (hs : ∀ t ∈ s, t.1 = i ∨ t.1 = j) {p : Pool C R ε α σ ι}
    {ti tj : Async C R ε α} (hi : p.tasks[i]? = some ⟨qi, ti⟩) (hj : p.tasks[j]? = some ⟨qj, tj⟩)
    (hpair : (S.trace p (turns s)).Pairwise fun f e ↦
      f.task = j → e.task = i → I.indep f.call f.reply e.call e.reply) :
    (S.run p (turns s)).tasks[i]? =
        some ⟨qi, (exec S.handler ti (choicesOf i s) p.world).1⟩ ∧
      (S.run p (turns s)).tasks[j]? =
        some ⟨qj, (exec S.handler tj (choicesOf j s)
          (exec S.handler ti (choicesOf i s) p.world).2).1⟩ ∧
      K.rel (S.run p (turns s)).world
        (exec S.handler tj (choicesOf j s) (exec S.handler ti (choicesOf i s) p.world).2).2 ∧
      callsOf i (S.trace p (turns s)) = calls S.handler ti (choicesOf i s) p.world := by
  -- On the schedule, from the front. The last conjunct tells which calls of the first task a call of
  -- the second has to be put after.
  induction s generalizing p ti tj with
  | nil =>
    simp only [choicesOf, List.filter_nil, List.map_nil, exec_nil, calls_nil]
    exact ⟨hi, hj, K.refl _, rfl⟩
  | cons t s ih =>
    obtain ⟨n, o⟩ := t
    have hs' : ∀ t ∈ s, t.1 = i ∨ t.1 = j := fun t ht ↦ hs t (List.mem_cons_of_mem _ ht)
    rcases hs (n, o) List.mem_cons_self with hn | hn
    · -- A move of the first task is the first of both runs.
      obtain rfl : n = i := hn
      rw [choicesOf_cons_self, choicesOf_cons_of_ne hij]
      rw [turns_cons, trace_cons] at hpair
      rw [turns_cons, run_cons, trace_cons]
      cases ti with
      | done a =>
        rw [advance_resume_of_finished hi trivial] at hpair ⊢
        simpa using ih hs' hi hj hpair
      | fail e =>
        rw [advance_resume_of_finished hi trivial] at hpair ⊢
        simpa using ih hs' hi hj hpair
      | await c k =>
        rw [S.advance_resume hi] at hpair ⊢
        have hlt := (List.getElem?_eq_some_iff.mp hi).1
        have hrest := ih hs' (p := ⟨_, p.tasks.set n _⟩) (List.getElem?_set_self hlt)
          (by rw [List.getElem?_set_ne hij]; exact hj) (List.pairwise_cons.mp hpair).2
        rw [Option.toList_some, List.singleton_append, exec_await_cons, calls_await_cons]
        refine ⟨hrest.1, hrest.2.1, hrest.2.2.1, ?_⟩
        have hfirst := callsOf_cons_self (i := n)
          (e := ⟨n, qi, c, (S.handler p.world c o).1⟩) rfl
        exact (hfirst _).trans (by rw [hrest.2.2.2])
    · -- A move of the second task is put after all that the first task does.
      obtain rfl : n = j := hn
      rw [choicesOf_cons_self, choicesOf_cons_of_ne hij.symm]
      rw [turns_cons, trace_cons] at hpair
      rw [turns_cons, run_cons, trace_cons]
      cases tj with
      | done a =>
        rw [advance_resume_of_finished hj trivial] at hpair ⊢
        simpa using ih hs' hi hj hpair
      | fail e =>
        rw [advance_resume_of_finished hj trivial] at hpair ⊢
        simpa using ih hs' hi hj hpair
      | await d m =>
        rw [S.advance_resume hj] at hpair ⊢
        have hlt := (List.getElem?_eq_some_iff.mp hj).1
        have hpair' := List.pairwise_cons.mp hpair
        obtain ⟨hti, htj, hrel, hcalls⟩ := ih hs' (p := ⟨_, p.tasks.set n _⟩)
          (by rw [List.getElem?_set_ne hij.symm]; exact hi) (List.getElem?_set_self hlt) hpair'.2
        have hind : ∀ e ∈ calls S.handler ti (choicesOf i s) (S.handler p.world d o).2,
            I.indep d (S.handler p.world d o).1 e.1 e.2 := by
          intro e he
          rw [← hcalls] at he
          obtain ⟨e', he', rfl⟩ := List.mem_map.mp he
          obtain ⟨hmem, htask⟩ := List.mem_filter.mp he'
          exact hpair'.1 e' hmem rfl (by simpa using htask)
        obtain ⟨hfirst, hsame, hreply, hrel'⟩ := I.exec_swap hind
        obtain ⟨hrest, hend, -⟩ := K.exec hrel' (m (S.handler p.world d o).1) (choicesOf n s)
        rw [Option.toList_some, List.singleton_append, exec_await_cons, hreply, hfirst]
        refine ⟨hti, ?_, K.trans hrel hend, ?_⟩
        · rw [← hrest]
          exact htj
        · have hother := callsOf_cons_of_ne (i := i)
            (e := ⟨n, qj, d, (S.handler p.world d o).1⟩) hij.symm
          exact (hother _).trans (by rw [hcalls, hsame])

end System

end Async
