import Mathlib.Tactic.Common

/-!
# Programs that await calls

An `async` function runs without interruption up to its next `await`, hands a call to the outside
and is resumed with the reply, which is a value or a rejection. `Async C R ε α` is that shape and
nothing else: a finished value, a thrown error, or a call `c : C` together with what the function
does for each reply. `R c` is the type of the value a call `c` is answered with.

Since the whole function between two awaits is one Lean term, an interleaving of several programs
can only happen at the awaits, which is exactly the granularity of a single-threaded event loop.

The monad instance gives `do` notation, and `tryCatch` is the `try`/`catch` of the language: a
handler installed around a program also sees what is thrown after any number of awaits.
-/

/-- A program that awaits calls `c : C`, answered with values of type `R c` or rejected with an
error, and ends with a value or by throwing. -/
inductive Async (C : Type) (R : C → Type) (ε α : Type) : Type
  /-- The function has returned. -/
  | done (a : α)
  /-- The function has thrown. -/
  | fail (e : ε)
  /-- The function is suspended at an `await`. -/
  | await (c : C) (k : Except ε (R c) → Async C R ε α)

namespace Async

variable {C : Type} {R : C → Type} {ε α β : Type}

/-! ## Sequencing, throwing, catching -/

protected def bind : Async C R ε α → (α → Async C R ε β) → Async C R ε β
  | done a, f => f a
  | fail e, _ => fail e
  | await c k, f => await c fun r ↦ (k r).bind f

protected def tryCatch : Async C R ε α → (ε → Async C R ε α) → Async C R ε α
  | done a, _ => done a
  | fail e, h => h e
  | await c k, h => await c fun r ↦ (k r).tryCatch h

instance : Monad (Async C R ε) where
  pure := done
  bind := Async.bind

instance : MonadExceptOf ε (Async C R ε) where
  throw := fail
  tryCatch := Async.tryCatch

@[simp] theorem pure_eq (a : α) : (pure a : Async C R ε α) = done a := rfl

@[simp] theorem throw_eq (e : ε) : (throw e : Async C R ε α) = fail e := rfl

@[simp] theorem done_bind (a : α) (f : α → Async C R ε β) :
    (done a : Async C R ε α) >>= f = f a := rfl

@[simp] theorem fail_bind (e : ε) (f : α → Async C R ε β) :
    (fail e : Async C R ε α) >>= f = fail e := rfl

@[simp] theorem await_bind (c : C) (k : Except ε (R c) → Async C R ε α)
    (f : α → Async C R ε β) : await c k >>= f = await c fun r ↦ k r >>= f := rfl

protected theorem bind_assoc {γ : Type} (p : Async C R ε α) (f : α → Async C R ε β)
    (g : β → Async C R ε γ) : p >>= f >>= g = p >>= fun a ↦ f a >>= g := by
  induction p with
  | done a => rfl
  | fail e => rfl
  | await c k ih => exact congrArg (await c) (funext fun r ↦ ih r)

@[simp] theorem tryCatch_done (a : α) (h : ε → Async C R ε α) :
    tryCatch (done a : Async C R ε α) h = done a := rfl

@[simp] theorem tryCatch_fail (e : ε) (h : ε → Async C R ε α) :
    tryCatch (fail e : Async C R ε α) h = h e := rfl

@[simp] theorem tryCatch_await (c : C) (k : Except ε (R c) → Async C R ε α)
    (h : ε → Async C R ε α) :
    tryCatch (await c k) h = await c fun r ↦ tryCatch (k r) h := rfl

/-- What a bare `await` does with the reply: return the value, or throw the rejection. -/
def settle : Except ε α → Async C R ε α
  | .ok a => done a
  | .error e => fail e

@[simp] theorem settle_ok (a : α) : (settle (.ok a) : Async C R ε α) = done a := rfl

@[simp] theorem settle_error (e : ε) : (settle (.error e) : Async C R ε α) = fail e := rfl

/-- `await c`. -/
def call (c : C) : Async C R ε (R c) := await c settle

@[simp] theorem call_bind (c : C) (f : R c → Async C R ε β) :
    (call c : Async C R ε (R c)) >>= f = await c fun r ↦ settle r >>= f := rfl

/-- A synchronous computation that may throw `e`. -/
def orThrow (e : ε) : Option α → Async C R ε α
  | some a => done a
  | none => fail e

@[simp] theorem orThrow_some (e : ε) (a : α) :
    (orThrow e (some a) : Async C R ε α) = done a := rfl

@[simp] theorem orThrow_none (e : ε) : (orThrow e none : Async C R ε α) = fail e := rfl

/-- The same program where more can be called. -/
def embed {D : Type} {T : D → Type} (f : C → D) : Async C (fun c ↦ T (f c)) ε α → Async D T ε α
  | done a => done a
  | fail e => fail e
  | await c k => await (f c) fun r ↦ (k r).embed f

/-- The program has returned or thrown. -/
def Finished : Async C R ε α → Prop
  | done _ => True
  | fail _ => True
  | await _ _ => False

instance : DecidablePred (Finished (C := C) (R := R) (ε := ε) (α := α))
  | done _ => isTrue trivial
  | fail _ => isTrue trivial
  | await _ _ => isFalse id

@[simp] theorem finished_done (a : α) : (done a : Async C R ε α).Finished := trivial

@[simp] theorem finished_fail (e : ε) : (fail e : Async C R ε α).Finished := trivial

@[simp] theorem not_finished_await (c : C) (k : Except ε (R c) → Async C R ε α) :
    ¬(await c k).Finished := id

/-! ## What every continuation respects

`Follows ρ φ Q p` is the contract of a program with the outside: as long as the answers it gets are
in `ρ`, it only issues calls in `φ` and it only returns values in `Q`. The contract is about the
text of the program alone, so it is available in the middle of a run, whatever else runs. `Always`
is the case where nothing is expected of the outside or of the value. -/

/-- Relying on answers in `ρ`, every call is in `φ` and every value returned is in `Q`. -/
def Follows (ρ : (c : C) → Except ε (R c) → Prop) (φ : C → Prop) (Q : α → Prop) :
    Async C R ε α → Prop
  | done a => Q a
  | fail _ => True
  | await c k => φ c ∧ ∀ r, ρ c r → Follows ρ φ Q (k r)

/-- Whatever the answers, every call is in `φ`. -/
abbrev Always (φ : C → Prop) (p : Async C R ε α) : Prop :=
  Follows (fun _ _ ↦ True) φ (fun _ ↦ True) p

section Follows

variable {ρ : (c : C) → Except ε (R c) → Prop} {φ ψ : C → Prop} {Q : α → Prop} {Q' : β → Prop}

@[simp] theorem follows_done {a : α} : Follows ρ φ Q (done a : Async C R ε α) ↔ Q a := Iff.rfl

@[simp] theorem follows_fail (e : ε) : Follows ρ φ Q (fail e : Async C R ε α) := trivial

@[simp] theorem follows_await {c : C} {k : Except ε (R c) → Async C R ε α} :
    Follows ρ φ Q (await c k) ↔ φ c ∧ ∀ r, ρ c r → Follows ρ φ Q (k r) := Iff.rfl

theorem Follows.bind {p : Async C R ε α} {f : α → Async C R ε β} (hp : Follows ρ φ Q p)
    (hf : ∀ a, Q a → Follows ρ φ Q' (f a)) : Follows ρ φ Q' (p >>= f) := by
  induction p with
  | done a => exact hf a hp
  | fail e => trivial
  | await c k ih => exact ⟨hp.1, fun r hr ↦ ih r (hp.2 r hr)⟩

theorem Follows.tryCatch {p : Async C R ε α} {h : ε → Async C R ε α} (hp : Follows ρ φ Q p)
    (hh : ∀ e, Follows ρ φ Q (h e)) : Follows ρ φ Q (tryCatch p h) := by
  induction p with
  | done a => exact hp
  | fail e => exact hh e
  | await c k ih => exact ⟨hp.1, fun r hr ↦ ih r (hp.2 r hr)⟩

/-- Where every call is allowed, every program keeps to it. -/
theorem always_of_forall (h : ∀ c, φ c) (p : Async C R ε α) : Always φ p := by
  induction p with
  | done a => trivial
  | fail e => trivial
  | await c k ih => exact ⟨h c, fun r _ ↦ ih r⟩

theorem Follows.mono {p : Async C R ε α} (h : Follows ρ φ Q p) (hφ : ∀ c, φ c → ψ c)
    {Q₂ : α → Prop} (hQ : ∀ a, Q a → Q₂ a) : Follows ρ ψ Q₂ p := by
  induction p with
  | done a => exact hQ a h
  | fail e => trivial
  | await c k ih => exact ⟨hφ c h.1, fun r hr ↦ ih r (h.2 r hr)⟩

end Follows

end Async
