import PaymentService.Cache.Shared

/-!
# Hits

`once` asks `if (inCache)`, so what it takes for a hit is a value that is truthy. A value that is
stored and not truthy is computed again by every call.
-/

namespace PaymentService

open Async

/-- The call changes what the cache has under a key. -/
def CacheOperation.Touches (key : String) : CacheOperation → Prop
  | ask _ => False
  | set write => write.key = key
  | del removed => removed = key
  | reset => True

namespace CacheManagerService

theorem performOperation_of_not_touches {key : String} {c : CacheOperation} (h : ¬c.Touches key)
    (store : CacheStore) (o : CacheChoice) : (performOperation store c o).2 key = store key := by
  cases c with
  | ask call => cases call <;> rfl
  | set write =>
    rcases change_cases store (store.set write o.now) o with heq | heq
    · exact congrFun (congrArg Prod.snd heq) key
    · refine (congrFun (congrArg Prod.snd heq) key).trans ?_
      exact Function.update_of_ne (fun heq ↦ h heq.symm) _ _
  | del removed =>
    rcases change_cases store (store.del removed) o with heq | heq
    · exact congrFun (congrArg Prod.snd heq) key
    · refine (congrFun (congrArg Prod.snd heq) key).trans ?_
      exact Function.update_of_ne (fun heq ↦ h heq.symm) _ _
  | reset => exact absurd trivial h

variable {config : CacheConfig}

theorem run_of_not_touches {key : String} {p : CachePool} {bs : List CacheAction}
    (h : ∀ e ∈ (cacheSystem config).trace p bs, ¬e.call.Touches key) :
    ((cacheSystem config).run p bs).world key = p.world key := by
  refine System.run_inv_of_trace (I := fun p' : CachePool ↦ p'.world key = p.world key)
    (fun p' a hp' hcall ↦ ?_) rfl bs h
  cases a with
  | env b => exact b.elim
  | spawn q => exact hp'
  | resume i o =>
    rcases (cacheSystem config).advance_resume_cases p' i o with heq | ⟨q, c, k, -, heq⟩
    · rw [heq]
      exact hp'
    · rw [heq] at hcall ⊢
      exact (performOperation_of_not_touches (hcall _ rfl) p'.world o).trans hp'

theorem advance_of_set {p : CachePool} (hp : Staged config p) {i : ℕ} {o : CacheChoice}
    {key : String} {arguments : OnceArguments} {write : CacheSet} {r : Js}
    (h : ((cacheSystem config).advance p (.resume i o)).1 =
      some ⟨i, .once key arguments, .set write, .ok r⟩) :
    write = writeOf config key arguments write.data ∧
      ((cacheSystem config).advance p (.resume i o)).2 =
        ⟨p.world.set write o.now, p.tasks.set i ⟨.once key arguments, done write.data⟩⟩ ∧
      i < p.tasks.length := by
  rcases (cacheSystem config).advance_resume_cases p i o with heq | ⟨q, c, k, hi, heq⟩
  · rw [heq] at h
    cases h
  · rw [heq] at h ⊢
    obtain ⟨-, rfl, rfl, hreply⟩ := Occurrence.mk.inj (Option.some_inj.mp h)
    have hreply := eq_of_heq hreply
    rcases (hp _ (List.mem_of_getElem? hi)).await_cases rfl with ⟨_, _, -, hc, -⟩ |
      ⟨_, _, -, hc, -⟩ | ⟨key', arguments', val, hq, hc, rfl⟩ | ⟨_, hq, -, -⟩
    · cases hc
    · cases hc
    · cases hq
      obtain rfl := CacheOperation.set.inj hc
      refine ⟨rfl, ?_, (List.getElem?_eq_some_iff.mp hi).1⟩
      have hworld : ((cacheSystem config).handler p.world
          (.set (writeOf config key arguments val)) o).2 = p.world.set _ o.now :=
        change_of_ok hreply
      rw [hworld]
      rfl
    · cases hq

/-- From here on, and as long as nobody else writes or removes the key, a call that reads the cache
before `expiry` has then returned `val`; it never gets to its cacher. -/
def Remembered (config : CacheConfig) (key : String) (val : Js) (expiry : ℚ) (p : CachePool) :
    Prop :=
  ∀ (bs : List CacheAction) (j : ℕ) (arguments : OnceArguments) (o : CacheChoice),
    (∀ e ∈ (cacheSystem config).trace p bs, ¬e.call.Touches key) →
    ((cacheSystem config).run p bs).tasks[j]? =
      some ⟨.once key arguments, serve config (.once key arguments)⟩ →
    arguments.toOptions.ignoreCache = false → o.fails = false → o.now < expiry →
    ((cacheSystem config).advance ((cacheSystem config).run p bs) (.resume j o)).2.tasks[j]? =
      some ⟨.once key arguments, done val⟩

theorem remembered_iff_of_entry {key : String} {val : Js} {expiry now : ℚ} (hnow : now < expiry)
    {p : CachePool} (hentry : p.world key = some ⟨val, expiry⟩) :
    Remembered config key val expiry p ↔ val.truthy = true := by
  have hread : ∀ bs, (∀ e ∈ (cacheSystem config).trace p bs, ¬e.call.Touches key) →
      ∀ now, now < expiry → ((cacheSystem config).run p bs).world.get key now = val := by
    intro bs hbs now hnow
    exact CacheStore.get_of_entry ((run_of_not_touches hbs).trans hentry) hnow
  constructor
  · intro h
    by_contra hfalsy
    -- The next call to arrive misses.
    have harrived : ((cacheSystem config).run p [.spawn (.once key .cacher)]).tasks[p.tasks.length]? =
        some ⟨.once key .cacher, serve config (.once key .cacher)⟩ := List.getElem?_concat_length
    have hnone : ∀ e ∈ (cacheSystem config).trace p [.spawn (.once key .cacher)],
        ¬e.call.Touches key := fun e he ↦ absurd he List.not_mem_nil
    have hhit := h _ _ .cacher ⟨now, false, .ok .undefined⟩ hnone harrived rfl rfl hnow
    rw [advance_of_get harrived rfl rfl, hread _ hnone now hnow, afterGet, if_neg hfalsy] at hhit
    exact onMiss_ne_done config (congrArg Task.rest (Option.some_inj.mp hhit))
  · intro htruthy bs j arguments o hbs hj hignore ho hnow
    rw [advance_of_get hj hignore ho, hread bs hbs o.now hnow, afterGet, if_pos htruthy]

/-- Once the write of a call has completed, further calls are answered with its value until the entry
expires exactly when the value is truthy. -/
theorem once_remembered_iff {store : CacheStore} {as : List CacheAction} {i : ℕ} {o : CacheChoice}
    {key : String} {arguments : OnceArguments} {write : CacheSet} {r : Js} {ttl : ℚ}
    (hwritten : ((cacheSystem config).advance ((cacheSystem config).run ⟨store, []⟩ as)
      (.resume i o)).1 = some ⟨i, .once key arguments, .set write, .ok r⟩)
    (hgiven : arguments.Gives write.data ttl) (hone : 1 ≤ ttl) :
    ((cacheSystem config).advance ((cacheSystem config).run ⟨store, []⟩ as)
        (.resume i o)).2.tasks[i]? = some ⟨.once key arguments, done write.data⟩ ∧
      (Remembered config key write.data (o.now + ⌊ttl⌋)
          ((cacheSystem config).advance ((cacheSystem config).run ⟨store, []⟩ as)
            (.resume i o)).2 ↔
        write.data.truthy = true) := by
  obtain ⟨hwrite, hpool, hi⟩ := advance_of_set (staged_run (staged_start store) as) hwritten
  have hset : write = ⟨key, write.data, ⌊ttl⌋⟩ := by
    rw [writeOf, OnceArguments.ttlOf_of_gives hgiven, setData_of_one_le config key _ hone] at hwrite
    exact hwrite
  have hentry : (((cacheSystem config).run ⟨store, []⟩ as).world.set write o.now) key =
      some ⟨write.data, o.now + ⌊ttl⌋⟩ := by
    rw [hset]
    exact CacheStore.set_self _ ⟨key, write.data, ⌊ttl⌋⟩ o.now
  have hpositive : (0 : ℚ) < ⌊ttl⌋ := by
    have hfloor : 1 ≤ ⌊ttl⌋ := Int.le_floor.mpr (by exact_mod_cast hone)
    exact Int.cast_pos.mpr (by omega)
  rw [hpool]
  have hnow : o.now < o.now + ⌊ttl⌋ := by linarith
  exact ⟨List.getElem?_set_self hi, remembered_iff_of_entry hnow hentry⟩

/-- A call with a time-to-live of a minute, as far as its write. -/
def minute (val : Js) : List CacheAction :=
  [.spawn (.once "key" (.withOptions (.number 60))), .resume 0 ⟨0, false, .ok .undefined⟩,
    .resume 0 ⟨0, false, .ok val⟩]

theorem written_minute (val : Js) :
    ((cacheSystem ⟨none⟩).advance ((cacheSystem ⟨none⟩).run ⟨fun _ ↦ none, []⟩ (minute val))
      (.resume 0 ⟨0, false, .ok .undefined⟩)).1 =
        some ⟨0, .once "key" (.withOptions (.number 60)), .set ⟨"key", val, 60⟩, .ok .undefined⟩ := by
  have hone : (1 : ℚ) ≤ 60 := by norm_num
  have hwrite : setData ⟨none⟩ "key" val (floor (some 60)) = ⟨"key", val, 60⟩ := by
    rw [setData_of_one_le _ _ _ hone, Int.floor_ofNat]
    rfl
  rw [← hwrite]
  rfl

theorem once_remembered_iff_token :
    Remembered ⟨none⟩ "key" (.str "token") (0 + 60)
      ((cacheSystem ⟨none⟩).advance ((cacheSystem ⟨none⟩).run ⟨fun _ ↦ none, []⟩
        (minute (.str "token"))) (.resume 0 ⟨0, false, .ok .undefined⟩)).2 := by
  have hfloor : ((⌊(60 : ℚ)⌋ : ℤ) : ℚ) = 60 := by norm_num
  have hkept := (once_remembered_iff (written_minute (.str "token")) rfl (by norm_num)).2
  rw [hfloor] at hkept
  exact hkept.mpr (by decide)

/-- A balance of zero is written, and the next call computes it again. -/
theorem zero_computed_again :
    ((cacheSystem ⟨none⟩).advance ((cacheSystem ⟨none⟩).run ⟨fun _ ↦ none, []⟩ (minute (.num 0)))
        (.resume 0 ⟨0, false, .ok .undefined⟩)).1 =
          some ⟨0, .once "key" (.withOptions (.number 60)), .set ⟨"key", .num 0, 60⟩,
            .ok .undefined⟩ ∧
      ¬Remembered ⟨none⟩ "key" (.num 0) (0 + 60)
        ((cacheSystem ⟨none⟩).advance ((cacheSystem ⟨none⟩).run ⟨fun _ ↦ none, []⟩
          (minute (.num 0))) (.resume 0 ⟨0, false, .ok .undefined⟩)).2 := by
  have hwritten := written_minute (.num 0)
  refine ⟨hwritten, fun hkept ↦ ?_⟩
  obtain ⟨-, hpool, -⟩ := advance_of_set (staged_run (staged_start _) _) hwritten
  rw [hpool] at hkept
  have hentry := CacheStore.set_self ((cacheSystem ⟨none⟩).run ⟨fun _ ↦ none, []⟩
    (minute (.num 0))).world ⟨"key", .num 0, 60⟩ 0
  have hnow : (0 : ℚ) < 0 + 60 := by norm_num
  exact absurd ((remembered_iff_of_entry hnow hentry).mp hkept) (by decide)

end CacheManagerService

end PaymentService
