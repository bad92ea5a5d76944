import PaymentService.Async.History
import PaymentService.Cache.Expiry

/-!
# The shared cache

Any number of calls of `once` and of `removeData` run over one cache. Four things are steps of their
own: the read, the cacher, the write, and the removal. The write is not awaited, so the caller has
its value when only the write is left: `returned?` is what a call has returned, and a task can be in
flight after that.

A call is always in one of a few stages, which `Stage` lists; `Stage.await_cases` says once what the
next step of a call can be, and every invariant below is read off it.
-/

namespace PaymentService

open Async

/-! ## Requests and calls -/

/-- What the methods of the service ask of the outside. -/
inductive CacheOperation
  /-- What `once` awaits. -/
  | ask (call : CacheCall)
  /-- `memoryCache.set(key, data, { ttl })`. -/
  | set (write : CacheSet)
  /-- `memoryCache.del(key)`. -/
  | del (key : String)
  /-- `memoryCache.reset()`. -/
  | reset

abbrev CacheOperation.Reply (_ : CacheOperation) : Type := Js

abbrev SharedProgram (α : Type) : Type := Async CacheOperation CacheOperation.Reply JsError α

/-- A removal drops the entry, or all of them. -/
def CacheStore.del (store : CacheStore) (key : String) : CacheStore :=
  Function.update store key none

def CacheStore.reset (_ : CacheStore) : CacheStore := fun _ ↦ none

theorem CacheStore.set_self (store : CacheStore) (write : CacheSet) (now : ℚ) :
    store.set write now write.key = some ⟨write.data, now + write.ttl⟩ := Function.update_self _ _ _

theorem CacheStore.get_of_entry {store : CacheStore} {key : String} {entry : CacheEntry}
    (h : store key = some entry) {now : ℚ} (hnow : now < entry.expiresAt) :
    store.get key now = entry.data := by
  rw [get, h]
  exact if_pos hnow

/-- A change of the cache: it takes effect, or it is refused. -/
def change (store store' : CacheStore) (o : CacheChoice) : Except JsError Js × CacheStore :=
  if o.fails then (.error .rejected, store) else (.ok .undefined, store')

theorem change_cases (store store' : CacheStore) (o : CacheChoice) :
    change store store' o = (.error .rejected, store) ∨
      change store store' o = (.ok .undefined, store') := by
  unfold change
  split
  · exact Or.inl rfl
  · exact Or.inr rfl

theorem change_of_ok {store store' : CacheStore} {o : CacheChoice} {r : Js}
    (h : (change store store' o).1 = .ok r) : (change store store' o).2 = store' := by
  rcases change_cases store store' o with heq | heq
  · rw [heq] at h
    cases h
  · rw [heq]

def performOperation :
    Handler CacheOperation CacheOperation.Reply JsError CacheStore CacheChoice :=
  fun store c o ↦
    match c with
    | .ask call => performCache store call o
    | .set write => change store (store.set write o.now) o
    | .del key => change store (store.del key) o
    | .reset => change store store.reset o

def CACHE_KEY_ALL : String := "CACHE_ALL"

inductive CacheRequest
  /-- `once(key, ...)`. -/
  | once (key : String) (arguments : OnceArguments)
  /-- `removeData(key)`. -/
  | removeData (key : String)
  /-- `GET /payment/admin/clear-cache/:key`. -/
  | clearRedisCache (key : String)

abbrev CachePool : Type :=
  Pool CacheOperation CacheOperation.Reply JsError Js CacheStore CacheRequest

abbrev CacheAction : Type := Action CacheChoice CacheRequest Empty

abbrev CacheOccurrence : Type := Occurrence CacheOperation CacheOperation.Reply JsError CacheRequest

namespace CacheManagerService

def removeData (key : String) : SharedProgram Js := do
  if key = CACHE_KEY_ALL then
    let _ ← call CacheOperation.reset
  else
    let _ ← call (CacheOperation.del key)
  pure (.str key)

/-- The write is issued, and nobody waits for what becomes of it. -/
def issue : Js × Option CacheSet → SharedProgram Js
  | (val, none) => done val
  | (val, some write) => await (.set write) fun _ ↦ done val

end CacheManagerService

/-- `SystemManagementController.clearRedisCache`. -/
def clearRedisCache (key : String) : SharedProgram Js := do
  let _ ← CacheManagerService.removeData key
  pure (.obj [("message", .str "removed success")])

namespace CacheManagerService

variable (config : CacheConfig)

def serve : CacheRequest → SharedProgram Js
  | .once key arguments => embed .ask (once config key arguments) >>= issue
  | .removeData key => removeData key
  | .clearRedisCache key => clearRedisCache key

/-- The cache changes by the calls alone. -/
def cacheSystem : System CacheOperation CacheOperation.Reply JsError Js CacheStore CacheChoice
    CacheRequest Empty where
  handler := performOperation
  program := serve config
  background := fun store _ ↦ store

@[simp] theorem cacheSystem_handler : (cacheSystem config).handler = performOperation := rfl

/-- What a call has returned; the write may still be under way. -/
def returned? : SharedProgram Js → Option Js
  | done val => some val
  | await (.set write) _ => some write.data
  | _ => none

/-! ## The stages of a call -/

def afterCacher (key : String) (arguments : OnceArguments) : Except JsError Js → SharedProgram Js
  | .ok val => embed .ask (callTtl arguments.toOptions val >>= fun ttl ↦
      pure (val, some (setData config key val (floor ttl)))) >>= issue
  | .error e => fail e

/-- A call that has not found its value in the cache. -/
def onMiss (key : String) (arguments : OnceArguments) : SharedProgram Js :=
  embed .ask (callCacher arguments >>= fun val ↦
    callTtl arguments.toOptions val >>= fun ttl ↦
      pure (val, some (setData config key val (floor ttl)))) >>= issue

/-- The write of a value. -/
def writeOf (key : String) (arguments : OnceArguments) (val : Js) : CacheSet :=
  setData config key val (floor (arguments.toOptions.ttlOf val))

def afterGet (key : String) (arguments : OnceArguments) : Except JsError Js → SharedProgram Js
  | .ok inCache => if inCache.truthy then done inCache else onMiss config key arguments
  | .error e => fail e

theorem serve_once_of_ignoreCache {key : String} {arguments : OnceArguments}
    (h : arguments.toOptions.ignoreCache = true) :
    serve config (.once key arguments) = onMiss config key arguments := by
  rw [serve, once, inCache, if_pos h]
  rfl

theorem serve_once {key : String} {arguments : OnceArguments}
    (h : arguments.toOptions.ignoreCache = false) :
    serve config (.once key arguments) =
      await (.ask (.get key)) (afterGet config key arguments) := by
  rw [serve, once, inCache, if_neg (Bool.eq_false_iff.mp h)]
  refine congrArg (await (CacheOperation.ask (.get key))) (funext fun r ↦ ?_)
  rcases r with e | inCache
  · rfl
  · change embed CacheOperation.ask (if inCache.truthy = true then pure (inCache, none) else _) >>=
      issue = if inCache.truthy = true then done inCache else onMiss config key arguments
    split
    · rfl
    · rfl

theorem onMiss_cases (key : String) (arguments : OnceArguments) :
    onMiss config key arguments = await (.ask .cacher) (afterCacher config key arguments) ∨
      onMiss config key arguments = fail .typeError := by
  have hcall : embed (T := CacheOperation.Reply) CacheOperation.ask (call CacheCall.cacher >>=
      fun val ↦ callTtl arguments.toOptions val >>= fun ttl ↦
        pure (val, some (setData config key val (floor ttl)))) >>= issue =
      await (.ask .cacher) (afterCacher config key arguments) := by
    refine congrArg (await (CacheOperation.ask .cacher)) (funext fun r ↦ ?_)
    cases r with
    | error e => rfl
    | ok val => rfl
  cases arguments with
  | cacher => exact Or.inl hcall
  | withOptions ttlOrOptions => exact Or.inl hcall
  | noCacher => exact Or.inr rfl

theorem onMiss_ne_done {key : String} {arguments : OnceArguments} {val : Js} :
    onMiss config key arguments ≠ done val := by
  intro h
  rcases onMiss_cases config key arguments with heq | heq
  · rw [heq] at h
    cases h
  · rw [heq] at h
    cases h

theorem afterCacher_cases (key : String) (arguments : OnceArguments) (val : Js) :
    afterCacher config key arguments (.ok val) =
        await (.set (writeOf config key arguments val)) (fun _ ↦ done val) ∨
      ∃ e, afterCacher config key arguments (.ok val) = fail e := by
  unfold afterCacher writeOf callTtl OnceOptions.ttlOf
  rcases arguments.toOptions.ttl with _ | resolver
  · exact Or.inr ⟨.typeError, rfl⟩
  · simp only
    rcases resolver val with e | ttl
    · exact Or.inr ⟨e, rfl⟩
    · exact Or.inl rfl

/-- What is left of the program of a request. -/
inductive Stage : CacheRequest → SharedProgram Js → Prop
  | arrived (q : CacheRequest) : Stage q (serve config q)
  | missed (key : String) (arguments : OnceArguments) :
    Stage (.once key arguments) (onMiss config key arguments)
  | writing (key : String) (arguments : OnceArguments) (val : Js) :
    Stage (.once key arguments) (await (.set (writeOf config key arguments val)) fun _ ↦ done val)
  | returned (q : CacheRequest) (val : Js) : Stage q (done val)
  | thrown (q : CacheRequest) (e : JsError) : Stage q (fail e)

theorem Stage.of_afterGet (key : String) (arguments : OnceArguments) (r : Except JsError Js) :
    Stage config (.once key arguments) (afterGet config key arguments r) := by
  rcases r with e | inCache
  · exact .thrown _ e
  · rw [afterGet]
    split
    · exact .returned _ inCache
    · exact .missed key arguments

theorem Stage.of_afterCacher (key : String) (arguments : OnceArguments) (r : Except JsError Js) :
    Stage config (.once key arguments) (afterCacher config key arguments r) := by
  rcases r with e | val
  · exact .thrown _ e
  · rcases afterCacher_cases config key arguments val with h | ⟨e, h⟩
    · rw [h]
      exact .writing key arguments val
    · rw [h]
      exact .thrown _ e

/-- The call a removal makes. -/
def removal (key : String) : CacheOperation := if key = CACHE_KEY_ALL then .reset else .del key

theorem removeData_eq (key : String) :
    removeData key = await (removal key) fun r ↦ settle r >>= fun _ ↦ done (.str key) := by
  by_cases hkey : key = CACHE_KEY_ALL
  · have hcall : removal key = .reset := if_pos hkey
    rw [hcall, removeData, if_pos hkey]
    rfl
  · have hcall : removal key = .del key := if_neg hkey
    rw [hcall, removeData, if_neg hkey]
    rfl

end CacheManagerService

/-- The key a request removes. -/
def CacheRequest.removed? : CacheRequest → Option String
  | once _ _ => none
  | removeData key => some key
  | clearRedisCache key => some key

namespace CacheManagerService

variable (config : CacheConfig)

theorem serve_of_removed {q : CacheRequest} {key : String} (h : q.removed? = some key) :
    ∃ k, serve config q = await (removal key) k ∧ ∀ r, (k r).Finished := by
  cases q with
  | once => cases h
  | removeData removed =>
    obtain rfl := Option.some_inj.mp h
    refine ⟨_, removeData_eq removed, fun r ↦ ?_⟩
    cases r <;> trivial
  | clearRedisCache removed =>
    obtain rfl := Option.some_inj.mp h
    have heq : serve config (.clearRedisCache removed) = removeData removed >>= fun _ ↦
      done (.obj [("message", .str "removed success")]) := rfl
    rw [removeData_eq, await_bind] at heq
    refine ⟨_, heq, fun r ↦ ?_⟩
    cases r <;> trivial

variable {config}

theorem Stage.await_cases {q : CacheRequest} {p : SharedProgram Js} {c : CacheOperation}
    {k : Except JsError Js → SharedProgram Js} (h : Stage config q p) (hp : p = await c k) :
    (∃ key arguments, q = .once key arguments ∧ c = .ask (.get key) ∧
        k = afterGet config key arguments) ∨
      (∃ key arguments, q = .once key arguments ∧ c = .ask .cacher ∧
        k = afterCacher config key arguments) ∨
      (∃ key arguments val, q = .once key arguments ∧
        c = .set (writeOf config key arguments val) ∧ k = fun _ ↦ done val) ∨
      ∃ key, q.removed? = some key ∧ c = removal key ∧ ∀ r, (k r).Finished := by
  have hmiss : ∀ key arguments, q = .once key arguments →
      onMiss config key arguments = await c k →
      ∃ key arguments, q = .once key arguments ∧ c = .ask .cacher ∧
        k = afterCacher config key arguments := by
    intro key arguments hq hp
    rcases onMiss_cases config key arguments with heq | heq
    · rw [heq] at hp
      cases hp
      exact ⟨key, arguments, hq, rfl, rfl⟩
    · rw [heq] at hp
      cases hp
  have hremoval : ∀ {key}, q.removed? = some key → serve config q = await c k →
      ∃ key, q.removed? = some key ∧ c = removal key ∧ ∀ r, (k r).Finished := by
    intro key hq hp
    obtain ⟨k', heq, hfin⟩ := serve_of_removed config hq
    rw [heq] at hp
    cases hp
    exact ⟨key, hq, rfl, hfin⟩
  cases h with
  | arrived =>
    cases q with
    | once key arguments =>
      cases hignore : arguments.toOptions.ignoreCache with
      | true =>
        rw [serve_once_of_ignoreCache config hignore] at hp
        exact Or.inr (Or.inl (hmiss key arguments rfl hp))
      | false =>
        rw [serve_once config hignore] at hp
        cases hp
        exact Or.inl ⟨key, arguments, rfl, rfl, rfl⟩
    | removeData key => exact Or.inr (Or.inr (Or.inr (hremoval rfl hp)))
    | clearRedisCache key => exact Or.inr (Or.inr (Or.inr (hremoval rfl hp)))
  | missed key arguments => exact Or.inr (Or.inl (hmiss key arguments rfl hp))
  | writing key arguments val =>
    cases hp
    exact Or.inr (Or.inr (Or.inl ⟨key, arguments, val, rfl, rfl, rfl⟩))
  | returned => cases hp
  | thrown => cases hp

theorem Stage.next {q : CacheRequest} {c : CacheOperation}
    {k : Except JsError Js → SharedProgram Js} (h : Stage config q (await c k))
    (r : Except JsError Js) : Stage config q (k r) := by
  rcases h.await_cases rfl with ⟨key, arguments, rfl, -, rfl⟩ | ⟨key, arguments, rfl, -, rfl⟩ |
    ⟨key, arguments, val, rfl, -, rfl⟩ | ⟨key, -, -, hfin⟩
  · exact .of_afterGet config key arguments r
  · exact .of_afterCacher config key arguments r
  · exact .returned _ val
  · cases hk : k r with
    | done a => exact .returned q a
    | fail e => exact .thrown q e
    | await c' k' => exact absurd (hfin r) (by rw [hk]; exact id)

/-- Every task is in one of the stages. -/
def Staged (config : CacheConfig) (p : CachePool) : Prop :=
  ∀ t ∈ p.tasks, Stage config t.request t.rest

theorem staged_advance {p : CachePool} (hp : Staged config p) (a : CacheAction) :
    Staged config ((cacheSystem config).advance p a).2 := by
  cases a with
  | env b => exact b.elim
  | spawn q =>
    intro t ht
    rcases List.mem_append.mp ht with ht | ht
    · exact hp t ht
    · rw [List.mem_singleton.mp ht]
      exact .arrived q
  | resume i o =>
    rcases (cacheSystem config).advance_resume_cases p i o with heq | ⟨q, c, k, hi, heq⟩
    · rw [heq]
      exact hp
    · rw [heq]
      intro t ht
      rcases List.mem_or_eq_of_mem_set ht with ht | rfl
      · exact hp t ht
      · exact (hp _ (List.mem_of_getElem? hi)).next _

theorem staged_run {p : CachePool} (hp : Staged config p) (as : List CacheAction) :
    Staged config ((cacheSystem config).run p as) :=
  System.run_inv (I := Staged config) (fun _ a hp ↦ staged_advance hp a) hp as

theorem staged_start (store : CacheStore) : Staged config ⟨store, []⟩ :=
  fun _ ht ↦ absurd ht List.not_mem_nil

theorem advance_of_get {p : CachePool} {j : ℕ} {key : String} {arguments : OnceArguments}
    (hj : p.tasks[j]? = some ⟨.once key arguments, serve config (.once key arguments)⟩)
    (hignore : arguments.toOptions.ignoreCache = false) {o : CacheChoice} (ho : o.fails = false) :
    ((cacheSystem config).advance p (.resume j o)).2.tasks[j]? = some ⟨.once key arguments,
      afterGet config key arguments (.ok (p.world.get key o.now))⟩ := by
  rw [serve_once config hignore] at hj
  have hreply : performOperation p.world (.ask (.get key)) o =
      (.ok (p.world.get key o.now), p.world) := by
    simp [performOperation, performCache, ho]
  have hlength := (List.getElem?_eq_some_iff.mp hj).1
  rw [(cacheSystem config).advance_resume hj o]
  simp only [cacheSystem, hreply]
  exact List.getElem?_set_self hlength

end CacheManagerService

end PaymentService
