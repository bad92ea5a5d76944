import PaymentService.Async.Pool
import Mathlib.Data.List.Forall2
import Mathlib.Algebra.BigOperators.Group.List.Basic
import Mathlib.Algebra.GroupWithZero.Nat

/-!
# Accounting

Some calls of a program are to be counted: those that spend, and those that earn the right to spend.
`Solvent spend earn b p` says that, starting with `b` units, `p` never spends more than it has. It
is a property of the text of the program; what it gives is about the whole pool: in any
interleaving, the spending calls are no more than what the requests were granted on arrival and the
earning calls together.

The other half connects the count to the state: a quantity of the state that grows by one with each
counted call, and with nothing else, is the number of counted calls.
-/

namespace Async

variable {C : Type} {R : C → Type} {ε α β σ ω ι μ : Type}

/-! ## Solvent programs -/

/-- Starting with `b` units, the program never spends more than it has earned. -/
def Solvent (spend earn : (c : C) → Except ε (R c) → Bool) : ℕ → Async C R ε α → Prop
  | _, done _ => True
  | _, fail _ => True
  | b, await c k =>
    ∀ r, ∃ b', (spend c r).toNat + b' ≤ b + (earn c r).toNat ∧ Solvent spend earn b' (k r)

section Solvent

variable {spend earn : (c : C) → Except ε (R c) → Bool} {b : ℕ}

@[simp] theorem solvent_done (a : α) : Solvent spend earn b (done a : Async C R ε α) := trivial

@[simp] theorem solvent_fail (e : ε) : Solvent spend earn b (fail e : Async C R ε α) := trivial

theorem Solvent.of_always {p : Async C R ε α} (hp : Always (fun c ↦ ∀ r, spend c r = false) p)
    (b : ℕ) : Solvent spend earn b p := by
  induction p generalizing b with
  | done a => trivial
  | fail e => trivial
  | await c k ih =>
    intro r
    exact ⟨b, by rw [hp.1 r]; simp, ih r (hp.2 r trivial) b⟩

theorem Solvent.skip {c : C} {k : Except ε (R c) → Async C R ε α}
    (hc : ∀ r, spend c r = false) (hk : ∀ r, Solvent spend earn b (k r)) :
    Solvent spend earn b (await c k) :=
  fun r ↦ ⟨b, by rw [hc r]; simp, hk r⟩

theorem Solvent.pay {c : C} {k : Except ε (R c) → Async C R ε α}
    (hk : ∀ r, Solvent spend earn b (k r)) : Solvent spend earn (b + 1) (await c k) :=
  fun r ↦ ⟨b, by have := Bool.toNat_le (spend c r); omega, hk r⟩

theorem Solvent.bind {p : Async C R ε α} {f : α → Async C R ε μ}
    (hp : Always (fun c ↦ ∀ r, spend c r = false) p) (hf : ∀ a, Solvent spend earn b (f a)) :
    Solvent spend earn b (p >>= f) := by
  induction p with
  | done a => exact hf a
  | fail e => trivial
  | await c k ih => exact Solvent.skip hp.1 fun r ↦ ih r (hp.2 r trivial)

theorem Solvent.bind_done {p : Async C R ε α} {f : α → Async C R ε μ}
    (hp : Solvent spend earn b p) (hf : ∀ a, (f a).Finished) :
    Solvent spend earn b (p >>= f) := by
  induction p generalizing b with
  | done a =>
    change Solvent spend earn b (f a)
    cases h : f a with
    | done a => trivial
    | fail e => trivial
    | await c k => exact absurd (hf a) (by rw [h]; exact id)
  | fail e => trivial
  | await c k ih =>
    intro r
    obtain ⟨b', hb, hk⟩ := hp r
    exact ⟨b', hb, ih r hk⟩

end Solvent

/-! ## Solvent pools -/

theorem countP_cons_toNat {γ : Type} (P : γ → Bool) (a : γ) (l : List γ) :
    (a :: l).countP P = l.countP P + (P a).toNat := by
  rw [List.countP_cons]
  cases P a <;> rfl

theorem sum_map_toNat {γ : Type} (P : γ → Bool) (l : List γ) :
    (l.map fun a ↦ (P a).toNat).sum = l.countP P := by
  induction l with
  | nil => rfl
  | cons a l ih => rw [List.map_cons, List.sum_cons, ih, countP_cons_toNat, Nat.add_comm]

private theorem forall₂_exchange {γ : Type} {P : ℕ → γ → Prop} {bs : List ℕ} {ts : List γ}
    (h : List.Forall₂ P bs ts) {i : ℕ} {t : γ} (hi : ts[i]? = some t) :
    ∃ b, P b t ∧ ∀ b' t', P b' t' →
      ∃ bs', List.Forall₂ P bs' (ts.set i t') ∧ bs'.sum + b = bs.sum + b' := by
  induction h generalizing i with
  | nil => exact absurd hi (by simp)
  | @cons b₀ t₀ bs ts h₀ htail ih =>
    cases i with
    | zero =>
      obtain rfl : t₀ = t := by simpa using hi
      refine ⟨b₀, h₀, fun b' t' h' ↦ ⟨b' :: bs, .cons h' htail, ?_⟩⟩
      rw [List.sum_cons, List.sum_cons]
      omega
    | succ i =>
      obtain ⟨b, hb, hex⟩ := ih (i := i) (by simpa using hi)
      refine ⟨b, hb, fun b' t' h' ↦ ?_⟩
      obtain ⟨bs', hbs', hsum⟩ := hex b' t' h'
      refine ⟨b₀ :: bs', .cons h₀ hbs', ?_⟩
      rw [List.sum_cons, List.sum_cons]
      omega

namespace System

variable {S : System C R ε α σ ω ι β} {spend earn : ι → (c : C) → Except ε (R c) → Bool}
  {grant : ι → ℕ}

theorem countP_spend_le (hS : ∀ q, Solvent (spend q) (earn q) (grant q) (S.program q))
    {p : Pool C R ε α σ ι} {bs : List ℕ}
    (hp : List.Forall₂ (fun b t ↦ Solvent (spend t.request) (earn t.request) b t.rest) bs p.tasks)
    (as : List (Action ω ι β)) :
    (S.trace p as).countP (·.counts spend) ≤
      bs.sum + ((arrivals as).map grant).sum + (S.trace p as).countP (·.counts earn) := by
  -- On the moves, with the budgets of the tasks: an arrival opens one, a call draws on one.
  induction as generalizing p bs with
  | nil => simp
  | cons a as ih =>
    cases a with
    | spawn q =>
      have hp' := List.rel_append hp
        (.cons (hS q) .nil : List.Forall₂
          (fun b (t : Task C R ε α ι) ↦ Solvent (spend t.request) (earn t.request) b t.rest)
          [grant q] [⟨q, S.program q⟩])
      have hrest := ih (p := (S.advance p (.spawn q)).2) hp'
      rw [List.sum_append, List.sum_singleton] at hrest
      rw [trace_cons, advance_spawn, Option.toList_none, List.nil_append, arrivals, List.map_cons,
        List.sum_cons]
      rw [advance_spawn] at hrest
      omega
    | env b => exact ih (p := ⟨S.background p.world b, p.tasks⟩) hp
    | resume i o =>
      rcases S.advance_resume_cases p i o with heq | ⟨q, c, k, hi, heq⟩
      · rw [trace_cons, heq]
        exact ih hp
      · obtain ⟨b, hb, hex⟩ := forall₂_exchange hp hi
        obtain ⟨b', hle, hk⟩ := hb (S.handler p.world c o).1
        obtain ⟨bs', hbs', hsum⟩ := hex b' ⟨q, k (S.handler p.world c o).1⟩ hk
        have hrest := ih (p := (S.advance p (.resume i o)).2) (by rw [heq]; exact hbs')
        rw [trace_cons, heq, Option.toList_some, List.singleton_append, countP_cons_toNat,
          countP_cons_toNat]
        rw [heq] at hrest
        simp only [Occurrence.counts, arrivals] at hle hrest ⊢
        omega

theorem countP_spend_start (hS : ∀ q, Solvent (spend q) (earn q) (grant q) (S.program q)) (w : σ)
    (as : List (Action ω ι β)) :
    (S.trace ⟨w, []⟩ as).countP (·.counts spend) ≤
      ((arrivals as).map grant).sum + (S.trace ⟨w, []⟩ as).countP (·.counts earn) := by
  simpa using countP_spend_le hS (p := ⟨w, []⟩) .nil as

/-! ## Counting in the state -/

/-- A quantity of the state that counted calls raise by one, and nothing else changes, is the number
of counted calls. -/
theorem measure_run {m : σ → ℕ} {P : (c : C) → Except ε (R c) → Bool}
    (hcall : ∀ w c o, m (S.handler w c o).2 = m w + (P c (S.handler w c o).1).toNat)
    (hback : ∀ w b, m (S.background w b) = m w) (p : Pool C R ε α σ ι)
    (as : List (Action ω ι β)) :
    m (S.run p as).world = m p.world + (S.trace p as).countP (·.counts fun _ ↦ P) := by
  induction as generalizing p with
  | nil => simp
  | cons a as ih =>
    rw [run_cons, ih]
    cases a with
    | spawn q => simp
    | env b => simp [hback]
    | resume i o =>
      rcases S.advance_resume_cases p i o with heq | ⟨q, c, k, hi, heq⟩
      · simp [heq]
      · rw [trace_cons, heq, Option.toList_some, List.singleton_append, countP_cons_toNat]
        simp only [hcall, Occurrence.counts]
        omega

end System

end Async
