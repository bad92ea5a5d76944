import Mathlib.Tactic.Linarith
import PaymentService.Cache.Service

/-!
# How long `once` keeps a value

The time-to-live that a caller gives is rounded down and then passed through `ttl || defaultTime`. So
less than a second becomes none, and none becomes the configured default. From one second on, the
value expires in time and the configuration plays no part.
-/

namespace PaymentService

open Async

/-! ## The time-to-live that is given -/

/-- What the time-to-live in the options is for a value, if there is one. -/
def OnceOptions.ttlOf (options : OnceOptions) (val : Js) : Option ℚ :=
  match options.ttl with
  | none => none
  | some ttl =>
    match ttl val with
    | .ok ttl => ttl
    | .error _ => none

/-- The caller gives `ttl` for a value, as a number or through a resolver. -/
def OnceArguments.Gives (arguments : OnceArguments) (val : Js) (ttl : ℚ) : Prop :=
  match arguments with
  | withOptions (.number given) => given = ttl
  | withOptions (.function resolver) => resolver val = .ok (some ttl)
  | withOptions (.options options) =>
    ∃ resolver, options.ttl = some (some resolver) ∧ resolver val = .ok (some ttl)
  | _ => False

theorem OnceArguments.ttlOf_of_gives {arguments : OnceArguments} {val : Js} {ttl : ℚ}
    (h : arguments.Gives val ttl) : arguments.toOptions.ttlOf val = some ttl := by
  cases arguments with
  | cacher => cases h
  | noCacher => cases h
  | withOptions ttlOrOptions =>
    cases ttlOrOptions with
    | undefined => cases h
    | number given =>
      obtain rfl : given = ttl := h
      rfl
    | function resolver =>
      have hresolver : resolver val = .ok (some ttl) := h
      simp only [toOptions, toOnceOptions, OnceOptions.ttlOf, hresolver]
    | options options =>
      obtain ⟨resolver, hoptions, hresolver⟩ := h
      simp only [toOptions, toOnceOptions, OnceOptions.ttlOf, hoptions, Option.getD_some, hresolver]

namespace CacheManagerService

/-! ## The write of a call -/

/-- A call without its configuration: the value, and the time-to-live when there is a write. -/
def computed (key : String) (arguments : OnceArguments) : CacheProgram (Js × Option (Option ℚ)) := do
  let inCache ← inCache arguments.toOptions key
  if inCache.truthy then pure (inCache, none)
  else
    let val ← callCacher arguments
    let ttl ← callTtl arguments.toOptions val
    pure (val, some ttl)

theorem once_eq (config : CacheConfig) (key : String) (arguments : OnceArguments) :
    once config key arguments = computed key arguments >>= fun (val, ttl) ↦
      done (val, ttl.map fun ttl ↦ setData config key val (floor ttl)) := by
  unfold once computed
  simp only [Async.bind_assoc]
  congr 1
  funext inCache
  split
  · rfl
  · simp only [Async.bind_assoc]
    rfl

theorem follows_computed (key : String) (arguments : OnceArguments) :
    Follows (fun _ _ ↦ True) (fun _ ↦ True)
      (fun (val, ttl) ↦ ∀ ttl', ttl = some ttl' → arguments.toOptions.ttlOf val = ttl')
      (computed key arguments) := by
  refine Follows.bind (Q := fun _ ↦ True) (always_of_forall (fun _ ↦ trivial) _) fun inCache _ ↦ ?_
  split
  · exact fun ttl' h ↦ by cases h
  · refine Follows.bind (Q := fun _ ↦ True) (always_of_forall (fun _ ↦ trivial) _) fun val _ ↦ ?_
    refine Follows.bind (Q := fun ttl ↦ arguments.toOptions.ttlOf val = ttl) ?_ fun ttl h ↦ ?_
    · unfold callTtl OnceOptions.ttlOf
      rcases arguments.toOptions.ttl with _ | resolver
      · trivial
      · simp only
        rcases resolver val with e | ttl
        · trivial
        · rfl
    · rintro ttl' ⟨⟩
      exact h

theorem run_once (config : CacheConfig) (key : String) (arguments : OnceArguments)
    (o : ℕ → CacheChoice) (store : CacheStore) :
    (Async.run performCache (once config key arguments) o store).1 =
      (Async.run performCache (computed key arguments) o store).1.map fun (val, ttl) ↦
        (val, ttl.map fun ttl ↦ setData config key val (floor ttl)) := by
  rw [once_eq, run_bind_done]

/-- What a call writes is its value, with the time-to-live that the options have for it; and under
another configuration the same call writes the same value. -/
theorem write_of_run {config : CacheConfig} {key : String} {arguments : OnceArguments}
    {o : ℕ → CacheChoice} {store : CacheStore} {val : Js} {write : CacheSet}
    (h : (Async.run performCache (once config key arguments) o store).1 = .ok (val, some write)) :
    write = setData config key val (floor (arguments.toOptions.ttlOf val)) ∧
      ∀ config', (Async.run performCache (once config' key arguments) o store).1 =
        .ok (val, some (setData config' key val (floor (arguments.toOptions.ttlOf val)))) := by
  rw [run_once] at h
  rcases hrun : (Async.run performCache (computed key arguments) o store).1 with e | ⟨val', ttl⟩
  · rw [hrun] at h
    cases h
  · have httl := (follows_computed key arguments).of_run hrun
    rw [hrun, Except.map, Except.ok.injEq, Prod.mk.injEq] at h
    obtain ⟨rfl, hwrite⟩ := h
    obtain ⟨ttl', rfl, rfl⟩ := Option.map_eq_some_iff.mp hwrite
    rw [httl ttl' rfl]
    refine ⟨rfl, fun config' ↦ ?_⟩
    rw [run_once, hrun]
    rfl

/-! ## When the value expires in time -/

section Write

variable (config : CacheConfig) (key : String) (val : Js)

theorem setData_of_one_le {ttl : ℚ} (h : 1 ≤ ttl) :
    setData config key val (floor (some ttl)) = ⟨key, val, ⌊ttl⌋⟩ := by
  have hfloor : 1 ≤ ⌊ttl⌋ := Int.le_floor.mpr (by exact_mod_cast h)
  have hne : ((⌊ttl⌋ : ℤ) : ℚ) ≠ 0 := Int.cast_ne_zero.mpr (by omega)
  simp only [setData, floor, Option.map_some, hne, if_false]

theorem setData_of_lt_one {ttl : ℚ} (h0 : 0 ≤ ttl) (h1 : ttl < 1) :
    setData config key val (floor (some ttl)) = ⟨key, val, config.defaultTime⟩ := by
  have hfloor : ⌊ttl⌋ = 0 := Int.floor_eq_zero_iff.mpr ⟨h0, h1⟩
  simp only [setData, floor, Option.map_some, hfloor, Int.cast_zero, if_true]

end Write

/-- When the caller gives a time-to-live for the value that a call stores: the entry expires in time,
whenever the write arrives, and the same is written under every configuration, exactly when a second
or more is given. -/
theorem once_expires_iff {config : CacheConfig} {key : String} {arguments : OnceArguments}
    {o : ℕ → CacheChoice} {store : CacheStore} {val : Js} {write : CacheSet} {ttl : ℚ}
    (hrun : (Async.run performCache (once config key arguments) o store).1 =
      .ok (val, some write))
    (hgiven : arguments.Gives val ttl) (hnonneg : 0 ≤ ttl) :
    ((∀ (store' : CacheStore) (now : ℚ), ∃ entry, store'.set write now key = some entry ∧
          entry.data = val ∧ entry.expiresAt ≤ now + ttl) ∧
        ∀ config', (Async.run performCache (once config' key arguments) o store).1 =
          .ok (val, some write)) ↔
      1 ≤ ttl := by
  obtain ⟨rfl, hother⟩ := write_of_run hrun
  rw [OnceArguments.ttlOf_of_gives hgiven] at hother ⊢
  constructor
  · rintro ⟨-, hsame⟩
    by_contra hlt
    push Not at hlt
    -- The default of another configuration would be written.
    have hwrite := (hother ⟨some (config.defaultTime + 1)⟩).symm.trans (hsame _)
    rw [setData_of_lt_one _ key val hnonneg hlt, setData_of_lt_one _ key val hnonneg hlt] at hwrite
    have hdefault : config.defaultTime + 1 = config.defaultTime :=
      congrArg CacheSet.ttl (Option.some.inj (Prod.mk.inj (Except.ok.inj hwrite)).2)
    linarith
  · intro hone
    rw [setData_of_one_le config key val hone]
    refine ⟨fun store' now ↦ ⟨_, Function.update_self _ _ _, rfl, ?_⟩, fun config' ↦ ?_⟩
    · have hfloor : ((⌊ttl⌋ : ℤ) : ℚ) ≤ ttl := Int.floor_le ttl
      exact add_le_add le_rfl hfloor
    · rw [hother config', setData_of_one_le config' key val hone]

/-- The cacher returns a token, which is valid for another `lifetime` seconds. -/
def tokenChoice : ℕ → CacheChoice := fun _ ↦ ⟨0, false, .ok (.str "token")⟩

def remainingLifetime (lifetime : ℚ) : OnceArguments :=
  .withOptions (.function fun _ ↦ .ok (some lifetime))

theorem once_expires_iff_minute :
    (∀ (store' : CacheStore) (now : ℚ), ∃ entry,
        store'.set ⟨"key", .str "token", 60⟩ now "key" = some entry ∧
          entry.data = .str "token" ∧ entry.expiresAt ≤ now + 60) ∧
      ∀ config', (Async.run performCache (once config' "key" (remainingLifetime 60)) tokenChoice
        fun _ ↦ none).1 = .ok (.str "token", some ⟨"key", .str "token", 60⟩) := by
  have hone : (1 : ℚ) ≤ 60 := by norm_num
  have hwrite : setData ⟨none⟩ "key" (.str "token") (floor (some 60)) =
      ⟨"key", .str "token", 60⟩ := by
    rw [setData_of_one_le _ _ _ hone, Int.floor_ofNat]
    rfl
  have hrun : (Async.run performCache (once ⟨none⟩ "key" (remainingLifetime 60)) tokenChoice
      fun _ ↦ none).1 = .ok (.str "token", some ⟨"key", .str "token", 60⟩) := by
    rw [← hwrite]
    rfl
  exact (once_expires_iff hrun rfl (zero_le_one.trans hone)).mpr hone

/-- A token that is valid for another half second is kept for half an hour. -/
theorem short_lifetime_kept :
    (remainingLifetime (1 / 2)).Gives (.str "token") (1 / 2) ∧
      (Async.run performCache (once ⟨none⟩ "key" (remainingLifetime (1 / 2))) tokenChoice
        fun _ ↦ none).1 = .ok (.str "token", some ⟨"key", .str "token", 1800⟩) ∧
      ((CacheStore.set (fun _ ↦ none) ⟨"key", .str "token", 1800⟩ 0) "key").map
        CacheEntry.expiresAt = some (0 + 1800) ∧
      ¬(0 + 1800 : ℚ) ≤ 0 + 1 / 2 := by
  refine ⟨rfl, ?_, rfl, by norm_num⟩
  have hwrite : setData ⟨none⟩ "key" (.str "token") (floor (some (1 / 2))) =
      ⟨"key", .str "token", 1800⟩ := setData_of_lt_one _ _ _ (by norm_num) (by norm_num)
  rw [← hwrite]
  rfl

end CacheManagerService

end PaymentService
