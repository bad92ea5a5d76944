import PaymentService.Cache.Shared

/-!
# After a removal

A removal drops the entries, and nothing else: a call that has its value and has issued its write is
not told. So a write that is under way when the cache is cleared puts back what was cleared.

That is all that can. The invariant `Fresh` follows the runs from a removal on: what the cache has
under the key, what is about to be written there, and what the calls that arrived since have returned
was computed since, or its write was under way at the removal.
-/

namespace PaymentService

open Async

/-! ## Removals -/

/-- The call takes the entry of a key away. -/
def CacheOperation.Removes (key : String) : CacheOperation → Prop
  | ask _ => False
  | set _ => False
  | del removed => removed = key
  | reset => True

/-- The request removes a key, alone or with all others. -/
def CacheRequest.Removes (key : String) (q : CacheRequest) : Prop :=
  ∃ removed, q.removed? = some removed ∧ (removed = key ∨ removed = CACHE_KEY_ALL)

namespace CacheManagerService

theorem removes_removal {key removed : String} (h : removed = key ∨ removed = CACHE_KEY_ALL) :
    (removal removed).Removes key := by
  by_cases hall : removed = CACHE_KEY_ALL
  · have hcall : removal removed = .reset := if_pos hall
    rw [hcall]
    trivial
  · have hcall : removal removed = .del removed := if_neg hall
    rw [hcall]
    exact h.resolve_right hall

theorem performOperation_of_removes {key : String} {c : CacheOperation} (hc : c.Removes key)
    {store : CacheStore} {o : CacheChoice} {r : Js} (h : (performOperation store c o).1 = .ok r) :
    (performOperation store c o).2 key = none := by
  cases c with
  | ask call => exact hc.elim
  | set write => exact hc.elim
  | del removed =>
    obtain rfl : removed = key := hc
    exact (congrFun (change_of_ok h) removed).trans (Function.update_self _ _ _)
  | reset => exact congrFun (change_of_ok h) key

variable {config : CacheConfig}

theorem Stage.removes {q : CacheRequest} {c : CacheOperation}
    {k : Except JsError Js → SharedProgram Js} (h : Stage config q (await c k)) {key : String}
    (hq : q.Removes key) : c.Removes key := by
  obtain ⟨removed, hremoved, hkey⟩ := hq
  rcases h.await_cases rfl with ⟨_, _, rfl, -, -⟩ | ⟨_, _, rfl, -, -⟩ | ⟨_, _, _, rfl, -, -⟩ |
    ⟨removed', hremoved', rfl, -⟩
  · cases hremoved
  · cases hremoved
  · cases hremoved
  · obtain rfl : removed' = removed := Option.some_inj.mp (hremoved'.symm.trans hremoved)
    exact removes_removal hkey

/-! ## What a step leads to -/

theorem onMiss_ne_set {key : String} {arguments : OnceArguments} {write : CacheSet}
    {k : Except JsError Js → SharedProgram Js} :
    onMiss config key arguments ≠ await (.set write) k := by
  intro h
  rcases onMiss_cases config key arguments with heq | heq
  · rw [heq] at h
    cases h
  · rw [heq] at h
    cases h

theorem afterGet_eq_done {key : String} {arguments : OnceArguments} {r : Except JsError Js}
    {val : Js} (h : afterGet config key arguments r = done val) :
    r = .ok val ∧ val.truthy = true := by
  rcases r with e | inCache
  · cases h
  · rw [afterGet] at h
    split at h
    · next htruthy =>
      obtain rfl : inCache = val := Async.done.inj h
      exact ⟨rfl, htruthy⟩
    · exact absurd h (onMiss_ne_done config)

theorem afterGet_ne_set {key : String} {arguments : OnceArguments} {r : Except JsError Js}
    {write : CacheSet} {k : Except JsError Js → SharedProgram Js} :
    afterGet config key arguments r ≠ await (.set write) k := by
  intro h
  rcases r with e | inCache
  · cases h
  · rw [afterGet] at h
    split at h
    · cases h
    · exact onMiss_ne_set h

theorem afterCacher_eq_set {key : String} {arguments : OnceArguments} {r : Except JsError Js}
    {write : CacheSet} {k : Except JsError Js → SharedProgram Js}
    (h : afterCacher config key arguments r = await (.set write) k) : r = .ok write.data := by
  rcases r with e | val
  · cases h
  · rcases afterCacher_cases config key arguments val with heq | ⟨e, heq⟩
    · rw [heq] at h
      cases h
      rfl
    · rw [heq] at h
      cases h

theorem afterCacher_ne_done {key : String} {arguments : OnceArguments} {r : Except JsError Js}
    {val : Js} : afterCacher config key arguments r ≠ done val := by
  intro h
  rcases r with e | val
  · cases h
  · rcases afterCacher_cases config key arguments val with heq | ⟨e, heq⟩
    · rw [heq] at h
      cases h
    · rw [heq] at h
      cases h

theorem Stage.next_eq_set {q : CacheRequest} {c : CacheOperation}
    {k : Except JsError Js → SharedProgram Js} (h : Stage config q (await c k))
    {r : Except JsError Js} {write : CacheSet} {k' : Except JsError Js → SharedProgram Js}
    (hnext : k r = await (.set write) k') : c = .ask .cacher ∧ r = .ok write.data := by
  rcases h.await_cases rfl with ⟨key, arguments, rfl, -, rfl⟩ | ⟨key, arguments, rfl, rfl, rfl⟩ |
    ⟨key, arguments, val, rfl, -, rfl⟩ | ⟨key, -, -, hfin⟩
  · exact absurd hnext afterGet_ne_set
  · exact ⟨rfl, afterCacher_eq_set hnext⟩
  · cases hnext
  · exact absurd (hfin r) (by rw [hnext]; exact id)

theorem Stage.next_eq_done {key : String} {arguments : OnceArguments} {c : CacheOperation}
    {k : Except JsError Js → SharedProgram Js} (h : Stage config (.once key arguments) (await c k))
    {r : Except JsError Js} {val : Js} (hnext : k r = done val) :
    (c = .ask (.get key) ∧ r = .ok val ∧ val.truthy = true) ∨
      ∃ write, c = .set write ∧ write.key = key ∧ write.data = val := by
  rcases h.await_cases rfl with ⟨_, _, hq, rfl, rfl⟩ | ⟨_, _, -, -, rfl⟩ |
    ⟨_, _, val', hq, rfl, rfl⟩ | ⟨_, hq, -, -⟩
  · cases hq
    exact Or.inl ⟨rfl, afterGet_eq_done hnext⟩
  · exact absurd hnext afterCacher_ne_done
  · cases hq
    obtain rfl : val' = val := Async.done.inj hnext
    exact Or.inr ⟨_, rfl, rfl, rfl⟩
  · cases hq

/-- No request starts with a write, or has its value before its first call. -/
theorem serve_cases (config : CacheConfig) (q : CacheRequest) :
    (∃ c k, serve config q = await c k ∧ ∀ write, c ≠ .set write) ∨
      ∃ e, serve config q = fail e := by
  have hremoval : ∀ {key}, q.removed? = some key →
      ∃ c k, serve config q = await c k ∧ ∀ write, c ≠ .set write := by
    intro key hq
    obtain ⟨k, heq, -⟩ := serve_of_removed config hq
    refine ⟨_, k, heq, fun write ↦ ?_⟩
    unfold removal
    split
    · exact CacheOperation.noConfusion
    · exact CacheOperation.noConfusion
  cases q with
  | once key arguments =>
    cases hignore : arguments.toOptions.ignoreCache with
    | true =>
      rw [serve_once_of_ignoreCache config hignore]
      rcases onMiss_cases config key arguments with heq | heq
      · exact Or.inl ⟨_, _, heq, fun write ↦ CacheOperation.noConfusion⟩
      · exact Or.inr ⟨_, heq⟩
    | false =>
      exact Or.inl ⟨_, _, serve_once config hignore, fun write ↦ CacheOperation.noConfusion⟩
  | removeData key => exact Or.inl (hremoval rfl)
  | clearRedisCache key => exact Or.inl (hremoval rfl)

/-! ## Where a value comes from -/

/-- The cacher of task `i` has returned `val`. -/
def Computed (es : List CacheOccurrence) (i : ℕ) (val : Js) : Prop :=
  ∃ q, ⟨i, q, .ask .cacher, .ok val⟩ ∈ es

/-- Task `i` has written `val` under the key. -/
def Wrote (key : String) (es : List CacheOccurrence) (i : ℕ) (val : Js) : Prop :=
  ∃ q write r, ⟨i, q, .set write, .ok r⟩ ∈ es ∧ write.key = key ∧ write.data = val

/-- Task `i` has issued the write of `val` under the key, which is still under way. -/
def Writing (key : String) (p : CachePool) (i : ℕ) (val : Js) : Prop :=
  ∃ q write k, p.tasks[i]? = some ⟨q, await (.set write) k⟩ ∧ write.key = key ∧ write.data = val

/-- Task `i` has computed `val` since `p₀`, or was about to write it then. -/
def Origin (key : String) (p₀ : CachePool) (es : List CacheOccurrence) (i : ℕ) (val : Js) : Prop :=
  Computed es i val ∨ Writing key p₀ i val

/-- A task has written `val` under the key since `p₀`, and had it from there. -/
def Stored (key : String) (p₀ : CachePool) (es : List CacheOccurrence) (val : Js) : Prop :=
  ∃ i, Wrote key es i val ∧ Origin key p₀ es i val

section Mono

variable {key : String} {p₀ : CachePool} {es es' : List CacheOccurrence} {i : ℕ} {val : Js}

theorem Computed.mono (hes : es ⊆ es') (h : Computed es i val) : Computed es' i val := by
  obtain ⟨q, hmem⟩ := h
  exact ⟨q, hes hmem⟩

theorem Wrote.mono (hes : es ⊆ es') (h : Wrote key es i val) : Wrote key es' i val := by
  obtain ⟨q, write, r, hmem, hwrite⟩ := h
  exact ⟨q, write, r, hes hmem, hwrite⟩

theorem Origin.mono (hes : es ⊆ es') (h : Origin key p₀ es i val) : Origin key p₀ es' i val :=
  Or.imp_left (Computed.mono hes) h

theorem Stored.mono (hes : es ⊆ es') (h : Stored key p₀ es val) : Stored key p₀ es' val := by
  obtain ⟨i, hwrote, horigin⟩ := h
  exact ⟨i, hwrote.mono hes, horigin.mono hes⟩

end Mono

/-- After the calls `es` since `p₀`, nothing under the key is older. -/
structure Fresh (config : CacheConfig) (key : String) (p₀ : CachePool) (es : List CacheOccurrence)
    (p : CachePool) : Prop where
  staged : Staged config p
  /-- What the cache has. -/
  entry : ∀ entry, p.world key = some entry → Stored key p₀ es entry.data
  /-- What is about to be written. -/
  writing : ∀ {i q write k}, p.tasks[i]? = some ⟨q, await (.set write) k⟩ → write.key = key →
    Origin key p₀ es i write.data
  /-- What the calls have returned that arrived since. -/
  returned : ∀ {i arguments val}, p₀.tasks.length ≤ i →
    p.tasks[i]? = some ⟨.once key arguments, done val⟩ →
      Computed es i val ∨ Stored key p₀ es val

section Fresh

variable {key : String} {p₀ : CachePool} {es : List CacheOccurrence} {p : CachePool}

theorem Fresh.spawn (h : Fresh config key p₀ es p) (q : CacheRequest) :
    Fresh config key p₀ es ⟨p.world, p.tasks ++ [⟨q, serve config q⟩]⟩ where
  staged := staged_advance h.staged (.spawn q)
  entry := h.entry
  writing := by
    intro i q' write k hi hkey
    rcases System.task_of_append hi with hi | ht
    · exact h.writing hi hkey
    · obtain ⟨rfl, hrest⟩ := Task.mk.inj ht
      rcases serve_cases config q' with ⟨c, k', heq, hc⟩ | ⟨e, heq⟩
      · rw [heq] at hrest
        cases hrest
        exact absurd rfl (hc write)
      · rw [heq] at hrest
        cases hrest
  returned := by
    intro i arguments val hlength hi
    rcases System.task_of_append hi with hi | ht
    · exact h.returned hlength hi
    · obtain ⟨rfl, hrest⟩ := Task.mk.inj ht
      rcases serve_cases config (.once key arguments) with ⟨c, k', heq, -⟩ | ⟨e, heq⟩
      · rw [heq] at hrest
        cases hrest
      · rw [heq] at hrest
        cases hrest

/-- What the cache has after a call is what it had, or what the call has written. -/
theorem entry_of_performOperation {c : CacheOperation} {store : CacheStore} {o : CacheChoice}
    {entry : CacheEntry} (h : (performOperation store c o).2 key = some entry) :
    store key = some entry ∨ ∃ write r, c = .set write ∧ write.key = key ∧
      write.data = entry.data ∧ (performOperation store c o).1 = .ok r := by
  cases c with
  | ask call => cases call <;> exact Or.inl h
  | set write =>
    rcases change_cases store (store.set write o.now) o with heq | heq
    · exact Or.inl ((congrFun (congrArg Prod.snd heq) key).symm.trans h)
    · have hset := (congrFun (congrArg Prod.snd heq) key).symm.trans h
      by_cases hkey : write.key = key
      · subst hkey
        obtain rfl := Option.some_inj.mp ((CacheStore.set_self _ _ _).symm.trans hset)
        exact Or.inr ⟨write, _, rfl, rfl, rfl, congrArg Prod.fst heq⟩
      · exact Or.inl ((Function.update_of_ne (Ne.symm hkey) _ _).symm.trans hset)
  | del removed =>
    rcases change_cases store (store.del removed) o with heq | heq
    · exact Or.inl ((congrFun (congrArg Prod.snd heq) key).symm.trans h)
    · have hdel := (congrFun (congrArg Prod.snd heq) key).symm.trans h
      by_cases hkey : key = removed
      · subst hkey
        cases (Function.update_self _ _ _).symm.trans hdel
      · exact Or.inl ((Function.update_of_ne hkey _ _).symm.trans hdel)
  | reset =>
    rcases change_cases store store.reset o with heq | heq
    · exact Or.inl ((congrFun (congrArg Prod.snd heq) key).symm.trans h)
    · cases (congrFun (congrArg Prod.snd heq) key).symm.trans h

theorem entry_of_get {store : CacheStore} {o : CacheChoice} {val : Js}
    (h : (performOperation store (.ask (.get key)) o).1 = .ok val) (htruthy : val.truthy = true) :
    ∃ entry, store key = some entry ∧ entry.data = val := by
  by_cases hfails : o.fails = true
  · rw [performOperation, performCache, if_pos hfails] at h
    cases h
  · rw [performOperation, performCache, if_neg hfails] at h
    obtain rfl : store.get key o.now = val := Except.ok.inj h
    unfold CacheStore.get at htruthy ⊢
    rcases hstore : store key with _ | entry
    · rw [hstore] at htruthy
      cases htruthy
    · rw [hstore] at htruthy
      simp only at htruthy ⊢
      split at htruthy
      · next hnow => exact ⟨entry, rfl, (if_pos hnow).symm⟩
      · cases htruthy

theorem Fresh.resume (h : Fresh config key p₀ es p) {i : ℕ} {q : CacheRequest} {c : CacheOperation}
    {k : Except JsError Js → SharedProgram Js} (hi : p.tasks[i]? = some ⟨q, await c k⟩)
    (o : CacheChoice) :
    Fresh config key p₀ (es ++ [⟨i, q, c, (performOperation p.world c o).1⟩])
      ⟨(performOperation p.world c o).2,
        p.tasks.set i ⟨q, k (performOperation p.world c o).1⟩⟩ := by
  have hstage : Stage config q (await c k) := h.staged _ (List.mem_of_getElem? hi)
  have hsub : es ⊆ es ++ [⟨i, q, c, (performOperation p.world c o).1⟩] :=
    List.subset_append_left _ _
  have hlast : ⟨i, q, c, (performOperation p.world c o).1⟩ ∈
      es ++ [⟨i, q, c, (performOperation p.world c o).1⟩] := List.mem_append_right _ List.mem_cons_self
  generalize hreply : (performOperation p.world c o).1 = r at hsub hlast ⊢
  refine ⟨?_, ?_, ?_, ?_⟩
  · have hnext := staged_advance h.staged (.resume i o)
    rw [(cacheSystem config).advance_resume hi o, cacheSystem_handler, hreply] at hnext
    exact hnext
  · intro entry hentry
    rcases entry_of_performOperation hentry with hold | ⟨write, r', rfl, hkey, hdata, hok⟩
    · exact (h.entry entry hold).mono hsub
    · -- The call of this step is the write.
      obtain rfl : r = .ok r' := hreply.symm.trans hok
      rw [← hdata]
      exact ⟨i, ⟨q, write, r', hlast, hkey, rfl⟩, (h.writing hi hkey).mono hsub⟩
  · intro m q' write k' hm hkey
    rcases System.task_of_set hm with ⟨rfl, ht⟩ | ⟨-, hm⟩
    · obtain ⟨rfl, hrest⟩ := Task.mk.inj ht
      obtain ⟨rfl, rfl⟩ := hstage.next_eq_set hrest.symm
      exact Or.inl ⟨q', hlast⟩
    · exact (h.writing hm hkey).mono hsub
  · intro m arguments val hlength hm
    rcases System.task_of_set hm with ⟨rfl, ht⟩ | ⟨-, hm⟩
    · obtain ⟨rfl, hrest⟩ := Task.mk.inj ht
      rcases hstage.next_eq_done hrest.symm with ⟨rfl, rfl, htruthy⟩ | ⟨write, rfl, hkey, rfl⟩
      · obtain ⟨entry, hentry, rfl⟩ := entry_of_get hreply htruthy
        exact Or.inr ((h.entry entry hentry).mono hsub)
      · -- A call that arrived since was not writing at the removal.
        refine Or.inl (((h.writing hi hkey).resolve_right ?_).mono hsub)
        rintro ⟨_, _, _, hold, -⟩
        exact absurd (List.getElem?_eq_some_iff.mp hold).1 (Nat.not_lt.mpr hlength)
    · exact (h.returned hlength hm).imp (Computed.mono hsub) (Stored.mono hsub)

theorem fresh_run (h : Fresh config key p [] p) (bs : List CacheAction) :
    Fresh config key p ((cacheSystem config).trace p bs) ((cacheSystem config).run p bs) := by
  refine System.run_trace_inv (I := Fresh config key p) (fun es p' a hp' ↦ ?_) h bs
  cases a with
  | env b => exact b.elim
  | spawn q =>
    rw [System.advance_spawn, Option.toList_none, List.append_nil]
    exact hp'.spawn q
  | resume i o =>
    rcases (cacheSystem config).advance_resume_cases p' i o with heq | ⟨q, c, k, hi, heq⟩
    · rw [heq, Option.toList_none, List.append_nil]
      exact hp'
    · rw [heq]
      exact hp'.resume hi o

end Fresh

/-- The pool in which a removal has just taken effect. -/
theorem fresh_of_removed {p : CachePool} (hp : Staged config p) {m : ℕ} {q : CacheRequest}
    {c : CacheOperation} {r : Js} {o : CacheChoice}
    (h : ((cacheSystem config).advance p (.resume m o)).1 = some ⟨m, q, c, .ok r⟩) {key : String}
    (hq : q.Removes key) :
    Fresh config key ((cacheSystem config).advance p (.resume m o)).2 []
      ((cacheSystem config).advance p (.resume m o)).2 where
  staged := staged_advance hp _
  entry := by
    intro entry hentry
    obtain ⟨q', c', k, o', hi, heq, hnext⟩ := System.exists_of_advance_eq_some h
    obtain ⟨-, rfl, rfl, hreply⟩ := Occurrence.mk.inj heq
    have hremoves := Stage.removes (hp _ (List.mem_of_getElem? hi)) hq
    rw [hnext, cacheSystem_handler] at hentry
    have hnone := performOperation_of_removes hremoves (eq_of_heq hreply).symm
    cases hnone.symm.trans hentry
  writing := fun {i q write k} hi hkey ↦ Or.inr ⟨q, write, k, hi, hkey, rfl⟩
  returned := by
    intro i arguments val hlength hi
    exact absurd (List.getElem?_eq_some_iff.mp hi).1 (Nat.not_lt.mpr hlength)

/-- What a call returns that arrives after a removal: its own cacher has returned it, or another
call has put it into the cache since, whose cacher has returned it since, or whose write was under
way when the removal took effect. -/
theorem once_after_removal {store : CacheStore} {as : List CacheAction} {m : ℕ} {o : CacheChoice}
    {q : CacheRequest} {c : CacheOperation} {r : Js} {key : String}
    (hremoved : ((cacheSystem config).advance ((cacheSystem config).run ⟨store, []⟩ as)
      (.resume m o)).1 = some ⟨m, q, c, .ok r⟩) (hq : q.Removes key)
    {p₀ : CachePool} (hp₀ : p₀ = ((cacheSystem config).advance
      ((cacheSystem config).run ⟨store, []⟩ as) (.resume m o)).2)
    {bs : List CacheAction} {j : ℕ} {arguments : OnceArguments} {rest : SharedProgram Js} {val : Js}
    (hj : p₀.tasks.length ≤ j)
    (htask : ((cacheSystem config).run p₀ bs).tasks[j]? = some ⟨.once key arguments, rest⟩)
    (hval : returned? rest = some val) :
    Computed ((cacheSystem config).trace p₀ bs) j val ∨
      ∃ i, Wrote key ((cacheSystem config).trace p₀ bs) i val ∧
        (Computed ((cacheSystem config).trace p₀ bs) i val ∨ Writing key p₀ i val) := by
  have hstart : Fresh config key p₀ [] p₀ :=
    hp₀ ▸ fresh_of_removed (staged_run (staged_start store) as) hremoved hq
  have hfresh := fresh_run hstart bs
  cases rest with
  | done val' =>
    obtain rfl : val' = val := Option.some_inj.mp hval
    exact hfresh.returned hj htask
  | fail e => cases hval
  | await c' k =>
    -- The value has been returned, and its write is under way.
    cases c' with
    | set write =>
      obtain rfl : write.data = val := Option.some_inj.mp hval
      have hstage := hfresh.staged _ (List.mem_of_getElem? htask)
      rcases hstage.await_cases rfl with ⟨_, _, -, hc, -⟩ | ⟨_, _, -, hc, -⟩ |
        ⟨_, _, _, hq', hc, -⟩ | ⟨_, hq', -, -⟩
      · cases hc
      · cases hc
      · cases hq'
        cases hc
        refine Or.inl ((hfresh.writing htask rfl).resolve_right ?_)
        rintro ⟨_, _, _, hold, -⟩
        exact absurd (List.getElem?_eq_some_iff.mp hold).1 (Nat.not_lt.mpr hj)
      · cases hq'
    | ask call => cases hval
    | del removed => cases hval
    | reset => cases hval

/-- Nothing goes wrong, and no time passes. -/
def quiet : CacheChoice := ⟨0, false, .ok .undefined⟩

/-- What a cacher returns. -/
def returns (val : String) : CacheChoice := ⟨0, false, .ok (.str val)⟩

/-- The key has been removed, and nothing else is going on. -/
def cleared : CachePool :=
  ((cacheSystem ⟨none⟩).advance ((cacheSystem ⟨none⟩).run ⟨fun _ ↦ none, []⟩
    [.spawn (.removeData "key")]) (.resume 0 quiet)).2

/-- A call that computes its value. -/
def computesNew : List CacheAction :=
  [.spawn (.once "key" .cacher), .resume 1 quiet, .resume 1 (returns "new")]

theorem once_after_removal_new :
    Computed ((cacheSystem ⟨none⟩).trace cleared computesNew) 1 (.str "new") ∨
      ∃ i, Wrote "key" ((cacheSystem ⟨none⟩).trace cleared computesNew) i (.str "new") ∧
        (Computed ((cacheSystem ⟨none⟩).trace cleared computesNew) i (.str "new") ∨
          Writing "key" cleared i (.str "new")) := by
  have hremoved : ((cacheSystem ⟨none⟩).advance ((cacheSystem ⟨none⟩).run ⟨fun _ ↦ none, []⟩
      [.spawn (.removeData "key")]) (.resume 0 quiet)).1 =
        some ⟨0, .removeData "key", .del "key", .ok .undefined⟩ := rfl
  have hremoves : (CacheRequest.removeData "key").Removes "key" := ⟨"key", rfl, Or.inl rfl⟩
  have hlength : cleared.tasks.length ≤ 1 := Nat.le_refl 1
  exact once_after_removal hremoved hremoves rfl hlength rfl rfl

/-- A call has returned `"old"` and not written it yet, and another removes the key. -/
def writing : CachePool :=
  (cacheSystem ⟨none⟩).run ⟨fun _ ↦ none, []⟩ [.spawn (.once "key" .cacher), .resume 0 quiet,
    .resume 0 (returns "old"), .spawn (.removeData "key")]

/-- The write arrives after the removal, and a third call reads what it has put back. -/
theorem old_put_back :
    ((cacheSystem ⟨none⟩).advance writing (.resume 1 quiet)).1 =
        some ⟨1, .removeData "key", .del "key", .ok .undefined⟩ ∧
      ((cacheSystem ⟨none⟩).advance writing (.resume 1 quiet)).2.tasks.length ≤ 2 ∧
      ((cacheSystem ⟨none⟩).run ((cacheSystem ⟨none⟩).advance writing (.resume 1 quiet)).2
          [.resume 0 quiet, .spawn (.once "key" .cacher), .resume 2 quiet]).tasks[2]? =
        some ⟨.once "key" .cacher, done (.str "old")⟩ ∧
      ((cacheSystem ⟨none⟩).trace ((cacheSystem ⟨none⟩).advance writing (.resume 1 quiet)).2
          [.resume 0 quiet, .spawn (.once "key" .cacher), .resume 2 quiet]).map Occurrence.call =
        [.set ⟨"key", .str "old", 1800⟩, .ask (.get "key")] := by
  refine ⟨rfl, Nat.le_refl 2, ?_, rfl⟩
  have hnow : quiet.now < 0 + 1800 := by
    rw [quiet]
    norm_num
  have harrived : ((cacheSystem ⟨none⟩).run ((cacheSystem ⟨none⟩).advance writing
      (.resume 1 quiet)).2 [.resume 0 quiet, .spawn (.once "key" .cacher)]).tasks[2]? =
        some ⟨.once "key" .cacher, serve ⟨none⟩ (.once "key" .cacher)⟩ := rfl
  have hentry : ((cacheSystem ⟨none⟩).run ((cacheSystem ⟨none⟩).advance writing
      (.resume 1 quiet)).2 [.resume 0 quiet, .spawn (.once "key" .cacher)]).world "key" =
        some ⟨.str "old", 0 + 1800⟩ := rfl
  have hget := advance_of_get harrived rfl (o := quiet) rfl
  rw [CacheStore.get_of_entry hentry hnow] at hget
  exact hget

end CacheManagerService

end PaymentService
