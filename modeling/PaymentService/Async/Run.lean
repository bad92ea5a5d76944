import PaymentService.Async.Program

/-!
# Running one program

A `Handler` says what the outside does with a call: in state `w`, under the outside's choice `o`, a
call `c` is answered and the state changes. Everything nondeterministic — failures, generated
identifiers, the content of a remote answer — is in the choice, so a run is a function of the
choices and "for every run" is "for every list of choices".

`run` performs a program to its end and needs one choice for each call; it takes them from an
infinite stream, so that it is total. `exec` performs as many calls as it is given choices and
returns what is left of the program; it is the form that interleaves.
-/

/-- What the outside answers to a call, and the state it moves to. -/
abbrev Async.Handler (C : Type) (R : C → Type) (ε σ ω : Type) : Type :=
  σ → (c : C) → ω → Except ε (R c) × σ

namespace Async

variable {C : Type} {R : C → Type} {ε α β σ ω : Type} (h : Handler C R ε σ ω)

/-! ## Runs to the end -/

/-- The choices after the first. -/
def later (o : ℕ → ω) : ℕ → ω := fun n ↦ o (n + 1)

@[simp] theorem later_apply (o : ℕ → ω) (n : ℕ) : later o n = o (n + 1) := rfl

/-- Run a program to its end: the outcome, and the state it leaves. -/
def run : Async C R ε α → (ℕ → ω) → σ → Except ε α × σ
  | done a, _, w => (.ok a, w)
  | fail e, _, w => (.error e, w)
  | await c k, o, w => run (k (h w c (o 0)).1) (later o) (h w c (o 0)).2

@[simp] theorem run_done (a : α) (o : ℕ → ω) (w : σ) :
    run h (done a : Async C R ε α) o w = (.ok a, w) := rfl

@[simp] theorem run_fail (e : ε) (o : ℕ → ω) (w : σ) :
    run h (fail e : Async C R ε α) o w = (.error e, w) := rfl

theorem run_await (c : C) (k : Except ε (R c) → Async C R ε α) (o : ℕ → ω) (w : σ) :
    run h (await c k) o w = run h (k (h w c (o 0)).1) (later o) (h w c (o 0)).2 := rfl

/-- A call is one step of the handler: once the answer is known, the run goes on from it. -/
theorem run_await_of {c : C} {k : Except ε (R c) → Async C R ε α} {o : ℕ → ω} {w : σ}
    {r : Except ε (R c)} {w' : σ} (hc : h w c (o 0) = (r, w')) :
    run h (await c k) o w = run h (k r) (later o) w' := by
  rw [run_await, hc]

theorem run_bind_done (p : Async C R ε α) (f : α → β) (o : ℕ → ω) (w : σ) :
    run h (p >>= fun a ↦ done (f a)) o w = ((run h p o w).1.map f, (run h p o w).2) := by
  induction p generalizing o w with
  | done a => rfl
  | fail e => rfl
  | await c k ih => exact ih (h w c (o 0)).1 (later o) (h w c (o 0)).2

/-- The calls a run performs, with their answers. -/
def performed : Async C R ε α → (ℕ → ω) → σ → List ((c : C) × Except ε (R c))
  | done _, _, _ => []
  | fail _, _, _ => []
  | await c k, o, w =>
    ⟨c, (h w c (o 0)).1⟩ :: performed (k (h w c (o 0)).1) (later o) (h w c (o 0)).2

/-- The same step of the handler, for the calls. -/
theorem performed_await_of {c : C} {k : Except ε (R c) → Async C R ε α} {o : ℕ → ω} {w : σ}
    {r : Except ε (R c)} {w' : σ} (hc : h w c (o 0) = (r, w')) :
    performed h (await c k) o w = ⟨c, r⟩ :: performed h (k r) (later o) w' := by
  rw [performed, hc]

theorem performed_bind_done (p : Async C R ε α) (f : α → β) (o : ℕ → ω) (w : σ) :
    performed h (p >>= fun a ↦ done (f a)) o w = performed h p o w := by
  induction p generalizing o w with
  | done a => rfl
  | fail e => rfl
  | await c k ih => exact congrArg _ (ih (h w c (o 0)).1 (later o) (h w c (o 0)).2)

variable {h}

/-- A change of state that the calls of a program do not see passes through its run. -/
theorem run_frame {φ : C → Prop} {f : σ → σ}
    (hf : ∀ w c o, φ c → h (f w) c o = ((h w c o).1, f (h w c o).2)) {p : Async C R ε α}
    (hp : Always φ p) (o : ℕ → ω) (w : σ) :
    run h p o (f w) = ((run h p o w).1, f (run h p o w).2) := by
  induction p generalizing o w with
  | done a => rfl
  | fail e => rfl
  | await c k ih => rw [run_await, run_await, hf w c (o 0) hp.1, ih _ (hp.2 _ trivial)]

/-- What every permitted call keeps, the whole run keeps. -/
theorem run_inv {φ : C → Prop} {I : σ → Prop} (hI : ∀ w c o, φ c → I w → I (h w c o).2)
    {p : Async C R ε α} (hp : Always φ p) (o : ℕ → ω) {w : σ} (hw : I w) :
    I (run h p o w).2 := by
  induction p generalizing o w with
  | done a => exact hw
  | fail e => exact hw
  | await c k ih => exact ih _ (hp.2 _ trivial) _ (hI w c (o 0) hp.1 hw)

theorem Follows.of_run {φ : C → Prop} {Q : α → Prop} {p : Async C R ε α}
    (hp : Follows (fun _ _ ↦ True) φ Q p) {o : ℕ → ω} {w : σ} {a : α}
    (ha : (run h p o w).1 = .ok a) : Q a := by
  induction p generalizing o w with
  | done b =>
    obtain rfl : b = a := Except.ok.inj ha
    exact hp
  | fail e => cases ha
  | await c k ih => exact ih _ (hp.2 _ trivial) ha

/-! ## Runs by steps -/

variable (h)

/-- Perform one call for each choice: what is left of the program, and the state. -/
def exec : Async C R ε α → List ω → σ → Async C R ε α × σ
  | await c k, o :: os, w => exec (k (h w c o).1) os (h w c o).2
  | p, _, w => (p, w)

@[simp] theorem exec_nil (p : Async C R ε α) (w : σ) : exec h p [] w = (p, w) := by
  cases p <;> rfl

@[simp] theorem exec_done (a : α) (os : List ω) (w : σ) :
    exec h (done a : Async C R ε α) os w = (done a, w) := by
  cases os <;> rfl

@[simp] theorem exec_fail (e : ε) (os : List ω) (w : σ) :
    exec h (fail e : Async C R ε α) os w = (fail e, w) := by
  cases os <;> rfl

@[simp] theorem exec_await_cons (c : C) (k : Except ε (R c) → Async C R ε α) (o : ω)
    (os : List ω) (w : σ) :
    exec h (await c k) (o :: os) w = exec h (k (h w c o).1) os (h w c o).2 := rfl

/-- A program executed to its end by a list of choices runs the same with any stream that starts
with that list. -/
theorem run_of_exec {p p' : Async C R ε α} {os : List ω} {w w' : σ} {o : ℕ → ω}
    (hex : exec h p os w = (p', w')) (hfin : p'.Finished)
    (ho : ∀ n (hn : n < os.length), o n = os[n]) :
    run h p o w = run h p' o w' := by
  induction os generalizing p w o with
  | nil =>
    rw [exec_nil, Prod.mk.injEq] at hex
    rw [hex.1, hex.2]
  | cons a os ih =>
    cases p with
    | done b =>
      rw [exec_done, Prod.mk.injEq] at hex
      rw [← hex.1, ← hex.2]
    | fail e =>
      rw [exec_fail, Prod.mk.injEq] at hex
      rw [← hex.1, ← hex.2]
    | await c k =>
      have h0 : o 0 = a := ho 0 (by simp)
      rw [exec_await_cons] at hex
      have hrest := ih (o := later o) hex fun n hn ↦ by
        rw [later_apply, ho (n + 1) (by simpa using hn)]
        rfl
      rw [run_await, h0, hrest]
      cases p' with
      | done b => rfl
      | fail e => rfl
      | await c' k' => exact absurd hfin id

end Async
