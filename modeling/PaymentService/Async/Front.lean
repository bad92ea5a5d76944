import PaymentService.Async.History
import Mathlib.Data.List.Forall2

/-!
# A front before a system

A front takes what arrives and passes some of it on to a system below it as requests. It answers the
rest itself, perhaps after calls of its own, which change nothing, and it makes an answer of whatever
comes of a request: of a value, and of what was thrown as well.

`Front` says this of the programs of the upper system, one by one. `Front.simulates` is what it comes
to: whatever arrives at the front and however it interleaves, there is a run of the system below that
receives the requests that were passed on, performs the same calls for them in the same order, and is
in the same state. So what holds in every run of the system below holds behind the front.
-/

namespace Async

variable {C D : Type} {T : D → Type} {f : C → D} {ε α α' σ ω ω' ι ι' β : Type}

/-! ## Answering -/

/-- The program below the front, and an answer to whatever comes of it. -/
def answered (f : C → D) (respond : Except ε α → α') :
    Async C (fun c ↦ T (f c)) ε α → Async D T ε α'
  | done a => done (respond (.ok a))
  | fail e => done (respond (.error e))
  | await c k => await (f c) fun r ↦ answered f respond (k r)

@[simp] theorem answered_await (respond : Except ε α → α') (c : C)
    (k : Except ε (T (f c)) → Async C (fun c ↦ T (f c)) ε α) :
    answered f respond (await c k) = await (f c) fun r ↦ answered f respond (k r) := rfl

theorem exists_of_answered_eq_done {respond : Except ε α → α'}
    {p : Async C (fun c ↦ T (f c)) ε α} {a' : α'} (h : answered (T := T) f respond p = done a') :
    (∃ a, p = done a ∧ a' = respond (.ok a)) ∨ ∃ e, p = fail e ∧ a' = respond (.error e) := by
  match p with
  | done a =>
    obtain rfl : respond (.ok a) = a' := by simpa [answered] using h
    exact Or.inl ⟨a, rfl, rfl⟩
  | fail e =>
    obtain rfl : respond (.error e) = a' := by simpa [answered] using h
    exact Or.inr ⟨e, rfl, rfl⟩
  | await c k => cases h

namespace System

variable {S : System C (fun c ↦ T (f c)) ε α σ ω ι β}

theorem requests_run (w : σ) (as : List (Action ω ι β)) :
    (S.run ⟨w, []⟩ as).tasks.map (·.request) = arrivals as := by
  induction as using List.reverseRecOn with
  | nil => rfl
  | append_singleton as a ih =>
    rw [run_append, run_cons, run_nil, arrivals_append, ← ih]
    match a with
    | .spawn q => rw [advance_spawn, List.map_append]; rfl
    | .env b => rw [advance_env]; exact (List.append_nil _).symm
    | .resume i o =>
      refine Eq.trans ?_ (List.append_nil _).symm
      rcases S.advance_resume_cases (S.run ⟨w, []⟩ as) i o with heq | ⟨q, c, k, hi, heq⟩
      · rw [heq]
      · have hq : ((S.run ⟨w, []⟩ as).tasks.map (·.request))[i]? = some q := by
          rw [List.getElem?_map, hi]
          rfl
        obtain ⟨hlt, hget⟩ := List.getElem?_eq_some_iff.mp hq
        rw [heq, List.map_set]
        change ((S.run ⟨w, []⟩ as).tasks.map (·.request)).set i q = _
        rw [← hget, List.set_getElem_self]

end System

/-! ## Fronts -/

/-- The upper system is a front of the lower one. -/
structure Front (S : System C (fun c ↦ T (f c)) ε α σ ω ι β) (O : System D T ε α' σ ω' ι' β) where
  /-- What is passed on, and as which request. -/
  forward : ι' → Option ι
  respond : ι' → Except ε α → α'
  /-- The part of a choice that is about the calls below. -/
  choice : ω' → ω
  handler : ∀ w c o, O.handler w (f c) o = S.handler w c (choice o)
  background : ∀ w b, O.background w b = S.background w b
  passed : ∀ q' q, forward q' = some q → O.program q' = answered f (respond q') (S.program q)
  /-- For what is not passed on, only calls are made that change nothing. -/
  kept : ∀ q', forward q' = none →
    Always (fun d ↦ ∀ w o, (O.handler w d o).2 = w) (O.program q')

namespace Front

variable {S : System C (fun c ↦ T (f c)) ε α σ ω ι β} {O : System D T ε α' σ ω' ι' β}
  (F : Front S O)

/-- The request is passed on. -/
def admits (q' : ι') : Bool := (F.forward q').isSome

/-- The place below of a request that is passed on: how many have been passed on before it. -/
def place (qs : List ι') (i : ℕ) : ℕ := (qs.take i).countP F.admits

/-- The tasks below are those of the requests that were passed on, and their answers are awaited
above. -/
inductive Matches : List (Task D T ε α' ι') → List (Task C (fun c ↦ T (f c)) ε α ι) → Prop
  | nil : Matches [] []
  | passed {q' : ι'} {q : ι} {ts' : List (Task D T ε α' ι')}
    {ts : List (Task C (fun c ↦ T (f c)) ε α ι)} (hq : F.forward q' = some q)
    (t : Async C (fun c ↦ T (f c)) ε α) (h : Matches ts' ts) :
    Matches (⟨q', answered f (F.respond q') t⟩ :: ts') (⟨q, t⟩ :: ts)
  | kept {q' : ι'} {t' : Async D T ε α'} {ts' : List (Task D T ε α' ι')}
    {ts : List (Task C (fun c ↦ T (f c)) ε α ι)} (hq : F.forward q' = none)
    (ht : Always (fun d ↦ ∀ w o, (O.handler w d o).2 = w) t') (h : Matches ts' ts) :
    Matches (⟨q', t'⟩ :: ts') ts

variable {F}

theorem Matches.append {ts₁' ts₂' : List (Task D T ε α' ι')}
    {ts₁ ts₂ : List (Task C (fun c ↦ T (f c)) ε α ι)} (h₁ : F.Matches ts₁' ts₁)
    (h₂ : F.Matches ts₂' ts₂) : F.Matches (ts₁' ++ ts₂') (ts₁ ++ ts₂) := by
  induction h₁ with
  | nil => exact h₂
  | passed hq t h ih => exact .passed hq t ih
  | kept hq ht h ih => exact .kept hq ht ih

theorem matches_arrival (F : Front S O) (q' : ι') :
    F.Matches [⟨q', O.program q'⟩] ((F.forward q').toList.map fun q ↦ ⟨q, S.program q⟩) := by
  rcases hq : F.forward q' with _ | q
  · exact .kept hq (F.kept q' hq) .nil
  · rw [F.passed q' q hq]
    exact .passed hq (S.program q) .nil

theorem Matches.task {ts' : List (Task D T ε α' ι')} {ts : List (Task C (fun c ↦ T (f c)) ε α ι)}
    (h : F.Matches ts' ts) {i : ℕ} {q' : ι'} {t' : Async D T ε α'} (hi : ts'[i]? = some ⟨q', t'⟩) :
    (∃ q t, F.forward q' = some q ∧ t' = answered f (F.respond q') t ∧
        ts[F.place (ts'.map (·.request)) i]? = some ⟨q, t⟩ ∧
        ∀ t₂, F.Matches (ts'.set i ⟨q', answered f (F.respond q') t₂⟩)
          (ts.set (F.place (ts'.map (·.request)) i) ⟨q, t₂⟩)) ∨
      F.forward q' = none ∧ Always (fun d ↦ ∀ w o, (O.handler w d o).2 = w) t' ∧
        ∀ t₂', Always (fun d ↦ ∀ w o, (O.handler w d o).2 = w) t₂' →
          F.Matches (ts'.set i ⟨q', t₂'⟩) ts := by
  induction h generalizing i with
  | nil => exact absurd hi (by simp)
  | @passed p' p ts' ts hp t h ih =>
    match i with
    | 0 =>
      obtain ⟨rfl, rfl⟩ := Task.mk.inj (Option.some_inj.mp hi)
      exact Or.inl ⟨p, t, hp, rfl, rfl, fun t₂ ↦ .passed hp t₂ h⟩
    | i + 1 =>
      have hplace : F.place ((⟨p', answered f (F.respond p') t⟩ :: ts').map (·.request)) (i + 1) =
          F.place (ts'.map (·.request)) i + 1 := by
        rw [place, List.map_cons, List.take_succ_cons, List.countP_cons_of_pos (by simp [admits, hp])]
        rfl
      rw [hplace]
      rcases ih (i := i) (by simpa using hi) with ⟨q, t₁, hq, ht, hget, hset⟩ | ⟨hq, ht, hset⟩
      · exact Or.inl ⟨q, t₁, hq, ht, by simpa using hget, fun t₂ ↦ .passed hp t (hset t₂)⟩
      · exact Or.inr ⟨hq, ht, fun t₂' ht₂ ↦ .passed hp t (hset t₂' ht₂)⟩
  | @kept p' t₀ ts' ts hp ht₀ h ih =>
    match i with
    | 0 =>
      obtain ⟨rfl, rfl⟩ := Task.mk.inj (Option.some_inj.mp hi)
      exact Or.inr ⟨hp, ht₀, fun t₂' ht₂ ↦ .kept hp ht₂ h⟩
    | i + 1 =>
      have hplace : F.place ((⟨p', t₀⟩ :: ts').map (·.request)) (i + 1) =
          F.place (ts'.map (·.request)) i := by
        rw [place, List.map_cons, List.take_succ_cons, List.countP_cons_of_neg (by simp [admits, hp])]
        rfl
      rw [hplace]
      rcases ih (i := i) (by simpa using hi) with ⟨q, t₁, hq, ht, hget, hset⟩ | ⟨hq, ht, hset⟩
      · exact Or.inl ⟨q, t₁, hq, ht, hget, fun t₂ ↦ .kept hp ht₀ (hset t₂)⟩
      · exact Or.inr ⟨hq, ht, fun t₂' ht₂ ↦ .kept hp ht₀ (hset t₂' ht₂)⟩

/-! ## Simulation -/

variable (F) in
/-- The pools are in the same state, and their tasks match. -/
def Simulated (P : Pool D T ε α' σ ι') (p : Pool C (fun c ↦ T (f c)) ε α σ ι) : Prop :=
  p.world = P.world ∧ F.Matches P.tasks p.tasks

variable (F) in
/-- The call below is the one above, of the task in its place, for the requests that have arrived. -/
def Corresponds (qs : List ι') (e' : Occurrence D T ε ι')
    (e : Occurrence C (fun c ↦ T (f c)) ε ι) : Prop :=
  e'.task < qs.length ∧ e.task = F.place qs e'.task ∧ F.forward e'.request = some e.request ∧
    e' = ⟨e'.task, e'.request, f e.call, e.reply⟩

theorem simulated_advance {P : Pool D T ε α' σ ι'} {p : Pool C (fun c ↦ T (f c)) ε α σ ι}
    (h : F.Simulated P p) (a : Action ω' ι' β) :
    ∃ as : List (Action ω ι β), F.Simulated (O.advance P a).2 (S.run p as) ∧
      System.arrivals as = (System.arrivals [a]).filterMap F.forward ∧
      List.Forall₂ (F.Corresponds (P.tasks.map (·.request)))
        ((O.advance P a).1.toList.filter fun e ↦ F.admits e.request) (S.trace p as) := by
  obtain ⟨hworld, hmatches⟩ := h
  match a with
  | .env b =>
    refine ⟨[.env b], ⟨?_, hmatches⟩, rfl, .nil⟩
    change S.background p.world b = O.background P.world b
    rw [F.background, hworld]
  | .spawn q' =>
    have harrived := hmatches.append (matches_arrival F q')
    rcases hq : F.forward q' with _ | q
    · rw [hq, Option.toList_none, List.map_nil, List.append_nil] at harrived
      exact ⟨[], ⟨hworld, harrived⟩, by simp [System.arrivals, hq], .nil⟩
    · rw [hq] at harrived
      exact ⟨[.spawn q], ⟨hworld, harrived⟩, by simp [System.arrivals, hq], .nil⟩
  | .resume i o =>
    rcases O.advance_resume_cases P i o with heq | ⟨q', d, k', hi, heq⟩
    · rw [heq]
      exact ⟨[], ⟨hworld, hmatches⟩, rfl, .nil⟩
    · rw [heq]
      rcases hmatches.task hi with ⟨q, t, hq, ht, hget, hset⟩ | ⟨hq, ht, hset⟩
      · -- A suspended task above is suspended at the same call below.
        rcases t with a | e | ⟨c, k⟩
        · exact absurd ht (by simp [answered])
        · exact absurd ht (by simp [answered])
        obtain ⟨rfl, hk⟩ : d = f c ∧ HEq k' fun r ↦ answered f (F.respond q') (k r) := by
          simpa [answered] using ht
        obtain rfl := eq_of_heq hk
        refine ⟨[.resume (F.place (P.tasks.map (·.request)) i) (F.choice o)], ?_, rfl, ?_⟩
        · rw [System.run_cons, System.run_nil, S.advance_resume hget, hworld, ← F.handler]
          exact ⟨rfl, hset _⟩
        · have hadmits : F.admits q' = true := by simp [admits, hq]
          rw [System.trace_cons, S.advance_resume hget, hworld, ← F.handler, Option.toList_some,
            List.filter_singleton, hadmits]
          refine .cons ⟨?_, rfl, hq, rfl⟩ .nil
          rw [List.length_map]
          exact (List.getElem?_eq_some_iff.mp hi).1
      · obtain ⟨hsame, hrest⟩ := ht
        have hadmits : F.admits q' = false := by simp [admits, hq]
        refine ⟨[], ⟨hworld.trans (hsame P.world o).symm, hset _ (hrest _ trivial)⟩, rfl, ?_⟩
        rw [Option.toList_some, List.filter_singleton, hadmits]
        exact .nil

variable (F) in
theorem place_append {qs : List ι'} {i : ℕ} (hi : i < qs.length) (qs' : List ι') :
    F.place (qs ++ qs') i = F.place qs i := by
  rw [place, place, List.take_append_of_le_length (Nat.le_of_lt hi)]

theorem Corresponds.append {qs : List ι'} {e' : Occurrence D T ε ι'}
    {e : Occurrence C (fun c ↦ T (f c)) ε ι} (h : F.Corresponds qs e' e) (qs' : List ι') :
    F.Corresponds (qs ++ qs') e' e := by
  obtain ⟨hlt, htask, hrest⟩ := h
  refine ⟨?_, htask.trans (F.place_append hlt qs').symm, hrest⟩
  rw [List.length_append]
  exact Nat.lt_add_right _ hlt

/-- Every run of the front is matched by a run of the system below: the same state, the requests that
were passed on, and the same calls for them in the same order. -/
theorem simulates (F : Front S O) (w : σ) (as' : List (Action ω' ι' β)) :
    ∃ as : List (Action ω ι β), F.Simulated (O.run ⟨w, []⟩ as') (S.run ⟨w, []⟩ as) ∧
      System.arrivals as = (System.arrivals as').filterMap F.forward ∧
      List.Forall₂ (F.Corresponds (System.arrivals as'))
        ((O.trace ⟨w, []⟩ as').filter fun e ↦ F.admits e.request) (S.trace ⟨w, []⟩ as) := by
  induction as' using List.reverseRecOn with
  | nil => exact ⟨[], ⟨rfl, .nil⟩, rfl, .nil⟩
  | append_singleton as' a ih =>
    obtain ⟨as, hsimulated, harrivals, htrace⟩ := ih
    obtain ⟨bs, hnext, hnew, hcalls⟩ := simulated_advance hsimulated a
    rw [System.requests_run] at hcalls
    refine ⟨as ++ bs, ?_, ?_, ?_⟩
    · rw [System.run_append, System.run_append]
      exact hnext
    · rw [System.arrivals_append, System.arrivals_append, List.filterMap_append, harrivals, hnew]
    · rw [System.trace_append, System.trace_append, System.arrivals_append, List.filter_append]
      refine List.rel_append (htrace.imp fun e' e h ↦ h.append _) ?_
      rw [System.trace_cons, System.trace_nil, List.append_nil]
      exact hcalls.imp fun e' e h ↦ h.append _

theorem simulated_run {P : Pool D T ε α' σ ι'} {p : Pool C (fun c ↦ T (f c)) ε α σ ι}
    (h : F.Simulated P p) (as' : List (Action ω' ι' β)) :
    ∃ as : List (Action ω ι β), F.Simulated (O.run P as') (S.run p as) := by
  induction as' generalizing P p with
  | nil => exact ⟨[], h⟩
  | cons a as' ih =>
    obtain ⟨as, hnext, -⟩ := simulated_advance h a
    obtain ⟨bs, hlast⟩ := ih hnext
    refine ⟨as ++ bs, ?_⟩
    rw [System.run_append]
    exact hlast

theorem evolves (F : Front S O) (K : System.Contract S) {w : σ} (hw : K.inv w)
    (as' bs' : List (Action ω' ι' β)) :
    K.evolves (O.run ⟨w, []⟩ as').world (O.run ⟨w, []⟩ (as' ++ bs')).world := by
  obtain ⟨as, hsimulated, -⟩ := F.simulates w as'
  obtain ⟨bs, hnext⟩ := simulated_run hsimulated bs'
  have hevolves := K.evolves_run (System.Contract.holds_run (System.Contract.holds_start hw) as) bs
  rwa [hsimulated.1, hnext.1, ← System.run_append] at hevolves

theorem answer_of_matches {P : Pool D T ε α' σ ι'} {p : Pool C (fun c ↦ T (f c)) ε α σ ι}
    (h : F.Simulated P p) {i : ℕ} {q' : ι'} {a' : α'} (hi : P.tasks[i]? = some ⟨q', done a'⟩)
    {q : ι} (hq : F.forward q' = some q) :
    ∃ t, p.tasks[F.place (P.tasks.map (·.request)) i]? = some ⟨q, t⟩ ∧
      ((∃ a, t = done a ∧ a' = F.respond q' (.ok a)) ∨
        ∃ e, t = fail e ∧ a' = F.respond q' (.error e)) := by
  rcases h.2.task hi with ⟨p', t, hp, ht, hget, -⟩ | ⟨hnone, -⟩
  · obtain rfl := Option.some_inj.mp (hq.symm.trans hp)
    exact ⟨t, hget, exists_of_answered_eq_done ht.symm⟩
  · rw [hq] at hnone
    cases hnone

end Front

end Async
