import Mathlib.Data.Rat.Floor
import PaymentService.Async.Run
import PaymentService.Entities

/-!
# `CacheManagerService`

`once` returns what the cache has under a key, or else runs a cacher, and stores what this returns.
The cache is read and the cacher is run with `await`. The write is issued and not awaited: `once`
returns its value together with the write, which takes effect when it reaches the cache.

The cache keeps an entry for the time-to-live it is stored with. Times are in seconds.
-/

namespace PaymentService

open Async

/-! ## Options -/

/-- A caller's function that computes a time-to-live; `none` is `undefined`. -/
abbrev TTLResolver : Type := Js → Except JsError (Option ℚ)

/-- `Partial<OnceOptions>`. A property is absent, or it is there and may be `undefined`. -/
structure PartialOnceOptions where
  ttl : Option (Option TTLResolver) := none
  ignoreCache : Option (Option Bool) := none

/-- What may stand before the cacher. -/
inductive OnceOptionFormat
  | undefined
  | number (ttl : ℚ)
  | function (ttl : TTLResolver)
  | options (options : PartialOnceOptions)

structure OnceOptions where
  ttl : Option TTLResolver
  ignoreCache : Bool

/-- `() => undefined`. -/
def noTtl : TTLResolver := fun _ ↦ .ok none

def toOnceOptions : OnceOptionFormat → OnceOptions
  | .undefined => ⟨some noTtl, false⟩
  | .number ttl => ⟨some fun _ ↦ .ok (some ttl), false⟩
  | .function ttl => ⟨some ttl, false⟩
  | .options options =>
    ⟨options.ttl.getD (some noTtl), (options.ignoreCache.getD (some false)).getD false⟩

/-- The arguments of `once` after the key. -/
inductive OnceArguments
  /-- `once(key, cacher)`. -/
  | cacher
  /-- `once(key, ttlOrOptions, cacher)`. -/
  | withOptions (ttlOrOptions : OnceOptionFormat)
  /-- No cacher, and what stands in its place is no function. -/
  | noCacher

def OnceArguments.toOptions : OnceArguments → OnceOptions
  | cacher => toOnceOptions (.options {})
  | withOptions ttlOrOptions => toOnceOptions ttlOrOptions
  | noCacher => toOnceOptions (.options {})

/-! ## The cache -/

/-- A write to the cache. -/
structure CacheSet where
  key : String
  data : Js
  ttl : ℚ

structure CacheEntry where
  data : Js
  expiresAt : ℚ

/-- The entries of the cache by their keys. -/
abbrev CacheStore : Type := String → Option CacheEntry

namespace CacheStore

/-- `memoryCache.get(key)`: an entry that has expired is gone. -/
def get (store : CacheStore) (key : String) (now : ℚ) : Js :=
  match store key with
  | some entry => if now < entry.expiresAt then entry.data else .undefined
  | none => .undefined

/-- `memoryCache.set(key, data, { ttl })`. -/
def set (store : CacheStore) (write : CacheSet) (now : ℚ) : CacheStore :=
  Function.update store write.key (some ⟨write.data, now + write.ttl⟩)

end CacheStore

/-! ## Calls -/

/-- What `once` awaits. -/
inductive CacheCall
  /-- `memoryCache.get(key)`. -/
  | get (key : String)
  /-- The call of the cacher. -/
  | cacher

abbrev CacheCall.Reply (_ : CacheCall) : Type := Js

abbrev CacheProgram (α : Type) : Type := Async CacheCall CacheCall.Reply JsError α

/-- What the outside decides about a call: the time, whether the cache fails, and what the cacher
returns or throws. -/
structure CacheChoice where
  now : ℚ
  fails : Bool := false
  value : Except JsError Js := .ok .undefined

def performCache : Async.Handler CacheCall CacheCall.Reply JsError CacheStore CacheChoice :=
  fun store c o ↦
    match c with
    | .get key => (if o.fails then .error .rejected else .ok (store.get key o.now), store)
    | .cacher => (o.value, store)

/-! ## The service -/

/-- `config.get('CACHE_TTL')`. -/
structure CacheConfig where
  cacheTtl : Option ℚ

def CACHE_TTL_DEFAULT : ℚ := 1800

/-- `config.get(CACHE_TTL, CACHE_TTL_DEFAULT)`. -/
def CacheConfig.defaultTime (config : CacheConfig) : ℚ := config.cacheTtl.getD CACHE_TTL_DEFAULT

namespace CacheManagerService

variable (config : CacheConfig)

def getData (key : String) : CacheProgram Js := call (CacheCall.get key)

/-- What the cache has, unless it is not to be asked. -/
def inCache (options : OnceOptions) (key : String) : CacheProgram Js :=
  if options.ignoreCache then pure .undefined else getData key

/-- The write that `setData` issues; no number is `undefined` or `NaN`. -/
def setData (key : String) (data : Js) (ttl : Option ℚ) : CacheSet where
  key := key
  data := data
  -- `ttl || defaultTime`
  ttl := match ttl with
    | none => config.defaultTime
    | some ttl => if ttl = 0 then config.defaultTime else ttl

/-- `Math.floor`; of `undefined` it is `NaN`. -/
def floor (ttl : Option ℚ) : Option ℚ := ttl.map fun ttl ↦ (⌊ttl⌋ : ℚ)

/-- `options.ttl(val)`. -/
def callTtl (options : OnceOptions) (val : Js) : CacheProgram (Option ℚ) :=
  match options.ttl with
  | none => throw .typeError
  | some ttl =>
    match ttl val with
    | .ok ttl => pure ttl
    | .error e => throw e

/-- `cacher()`. -/
def callCacher : OnceArguments → CacheProgram Js
  | .noCacher => throw .typeError
  | _ => call CacheCall.cacher

/-- The value, and the write that is issued when it does not come from the cache. -/
def once (key : String) (arguments : OnceArguments) : CacheProgram (Js × Option CacheSet) := do
  let inCache ← inCache arguments.toOptions key
  if inCache.truthy then pure (inCache, none)
  else
    let val ← callCacher arguments
    let ttl ← callTtl arguments.toOptions val
    pure (val, some (setData config key val (floor ttl)))

end CacheManagerService

end PaymentService
