import EndpointAudit.ClassPath.Cache
import EndpointAudit.Proofs.Data.Except
import EndpointAudit.Proofs.Data.Lookup

/-!
# Loading through a cache

A cache is faithful if it holds what loading finds. Loading through a faithful cache finds what
loading without one finds and leaves the cache faithful; so does everything that is put together
from it. In any sequence of loads a class is parsed once at most.
-/

namespace EndpointAudit

namespace ClassCache

/-- The names of the types whose classes have been parsed. -/
def keys (cache : ClassCache) : List String := cache.parsed.map (·.1)

/-- Everything in the cache is what loading finds. -/
def Faithful (cp : ClassPath) (cache : ClassCache) : Prop :=
  ∀ e ∈ cache.parsed, ∀ typeName, Naming.dotted typeName = e.1 → cp.load typeName = .ok e.2

/-- The second cache is the first one some time later. -/
structure Extends (cache cache' : ClassCache) : Prop where
  /-- What is in a cache is never changed or removed. -/
  kept : cache.parsed <+: cache'.parsed
  nodup : cache.keys.Nodup → cache'.keys.Nodup

theorem faithful_empty (cp : ClassPath) : Faithful cp {} := by
  simp [Faithful]

theorem Extends.refl (cache : ClassCache) : cache.Extends cache := ⟨List.prefix_rfl, id⟩

theorem Extends.trans {cache between last : ClassCache} (h : cache.Extends between)
    (h' : between.Extends last) : cache.Extends last :=
  ⟨h.kept.trans h'.kept, h'.nodup ∘ h.nodup⟩

theorem keep_of_not_mem {cache : ClassCache} {key : String} (h : key ∉ cache.keys)
    (cls : ClassFile) : cache.keep key cls = { parsed := cache.parsed ++ [(key, cls)] } := by
  have hnone : Assoc.hasKey key cache.parsed = false := by
    rw [Assoc.hasKey_eq_isSome_get?, Option.isSome_eq_false_iff, Option.isNone_iff_eq_none]
    exact (Assoc.get?_eq_none_iff key cache.parsed).mpr h
  rw [keep, Assoc.putIfAbsent, hnone]
  rfl

theorem keys_keep {cache : ClassCache} {key : String} (h : key ∉ cache.keys) (cls : ClassFile) :
    (cache.keep key cls).keys = cache.keys ++ [key] := by
  simp [keep_of_not_mem h, keys]

private theorem extends_keep {cache : ClassCache} {key : String} (h : key ∉ cache.keys)
    (cls : ClassFile) : cache.Extends (cache.keep key cls) where
  kept := by
    rw [keep_of_not_mem h]
    exact List.prefix_append _ _
  nodup hnodup := by
    rw [keys_keep h]
    exact List.Nodup.append hnodup (List.nodup_singleton _) (List.disjoint_singleton.mpr h)

end ClassCache

namespace ClassPath

open ClassCache

variable {cp : ClassPath}

private theorem load_congr (cp : ClassPath) {typeName other : String}
    (h : Naming.dotted typeName = Naming.dotted other) : cp.load typeName = cp.load other := by
  rw [load, load, h]

private theorem faithful_keep {cache : ClassCache} (hcache : cache.Faithful cp) {typeName : String}
    {cls : ClassFile} (hload : cp.load typeName = .ok cls)
    (hnew : Naming.dotted typeName ∉ cache.keys) :
    (cache.keep (Naming.dotted typeName) cls).Faithful cp := by
  rw [keep_of_not_mem hnew]
  intro e he other hother
  rcases List.mem_append.mp he with hold | hkept
  · exact hcache e hold other hother
  · rw [List.mem_singleton.mp hkept] at hother ⊢
    rw [cp.load_congr hother, hload]

private theorem loadCached_run_of_some {cache : ClassCache} {typeName : String} {cls : ClassFile}
    (h : Assoc.get? (Naming.dotted typeName) cache.parsed = some cls) :
    (cp.loadCached typeName).run cache = (.ok cls, cache) := by
  have hcache : (get : Loading ClassCache).run cache = (.ok cache, cache) := rfl
  rw [loadCached, run_bind hcache, h]
  rfl

private theorem loadCached_run_of_none (cp : ClassPath) {cache : ClassCache} {typeName : String}
    (h : Assoc.get? (Naming.dotted typeName) cache.parsed = none) :
    (cp.loadCached typeName).run cache = (cp.load typeName,
      match cp.load typeName with
      | .ok cls => cache.keep (Naming.dotted typeName) cls
      | .error _ => cache) := by
  have hcache : (get : Loading ClassCache).run cache = (.ok cache, cache) := rfl
  rw [loadCached, run_bind hcache, h]
  cases cp.load typeName <;> rfl

/-- What a load through a cache leaves. -/
theorem loadCached_run {cache : ClassCache} (hcache : cache.Faithful cp) (typeName : String) :
    ∃ cache', (cp.loadCached typeName).run cache = (cp.load typeName, cache') ∧
      cache'.Faithful cp ∧ cache.Extends cache' ∧
      ∀ key, key ∈ cache'.keys ↔ key ∈ cache.keys ∨
        key = Naming.dotted typeName ∧ ∃ cls, cp.load typeName = .ok cls := by
  cases hget : Assoc.get? (Naming.dotted typeName) cache.parsed with
  | some cls =>
    have hmem := Assoc.mem_of_get?_eq_some hget
    have hload : cp.load typeName = .ok cls := hcache _ hmem typeName rfl
    refine ⟨cache, hload ▸ loadCached_run_of_some hget, hcache, .refl cache,
      fun key => ⟨.inl, ?_⟩⟩
    rintro (hkey | ⟨rfl, -⟩)
    · exact hkey
    · exact List.mem_map_of_mem hmem
  | none =>
    have hnew : Naming.dotted typeName ∉ cache.keys := (Assoc.get?_eq_none_iff _ _).mp hget
    have hrun := loadCached_run_of_none cp hget
    cases hload : cp.load typeName with
    | error e =>
      rw [hload] at hrun
      exact ⟨cache, hrun, hcache, .refl cache, by simp⟩
    | ok cls =>
      rw [hload] at hrun
      refine ⟨_, hrun, faithful_keep hcache hload hnew, extends_keep hnew cls, fun key => ?_⟩
      rw [keys_keep hnew]
      simp

/-! ## Programs that load -/

/-- From a faithful cache, the program gives the answer and leaves a faithful cache. -/
def Transparent {α : Type} (cp : ClassPath) (program : Loading α)
    (answer : Except LoadError α) : Prop :=
  ∀ cache : ClassCache, cache.Faithful cp →
    ∃ cache', program.run cache = (answer, cache') ∧ cache'.Faithful cp ∧ cache.Extends cache'

section Transparent

variable {α β : Type}

theorem transparent_lift (answer : Except LoadError α) :
    Transparent cp (liftM answer) answer :=
  fun cache hcache => ⟨cache, rfl, hcache, .refl cache⟩

theorem transparent_pure (a : α) : Transparent cp (pure a) (.ok a) :=
  transparent_lift (.ok a)

theorem transparent_throw (e : LoadError) : Transparent cp (throw e : Loading α) (.error e) :=
  transparent_lift (.error e)

theorem Transparent.bind {x : Loading α} {y : Except LoadError α} {f : α → Loading β}
    {g : α → Except LoadError β} (hx : Transparent cp x y)
    (hf : ∀ a, Transparent cp (f a) (g a)) : Transparent cp (x >>= f) (y >>= g) := by
  intro cache hcache
  obtain ⟨between, hrun, hbetween, hext⟩ := hx cache hcache
  cases y with
  | error e => exact ⟨between, run_bind_error hrun, hbetween, hext⟩
  | ok a =>
    obtain ⟨last, hrun', hlast, hext'⟩ := hf a between hbetween
    exact ⟨last, (run_bind hrun).trans hrun', hlast, hext.trans hext'⟩

theorem Transparent.tryCatch {x : Loading α} {y : Except LoadError α}
    {f : LoadError → Loading α} {g : LoadError → Except LoadError α} (hx : Transparent cp x y)
    (hf : ∀ e, Transparent cp (f e) (g e)) :
    Transparent cp (tryCatch x f) (tryCatch y g) := by
  intro cache hcache
  obtain ⟨between, hrun, hbetween, hext⟩ := hx cache hcache
  cases y with
  | ok a => exact ⟨between, run_tryCatch hrun, hbetween, hext⟩
  | error e =>
    obtain ⟨last, hrun', hlast, hext'⟩ := hf e between hbetween
    exact ⟨last, (run_tryCatch_error hrun).trans hrun', hlast, hext.trans hext'⟩

end Transparent

theorem transparent_loadCached (cp : ClassPath) (typeName : String) :
    Transparent cp (cp.loadCached typeName) (cp.load typeName) := by
  intro cache hcache
  obtain ⟨cache', hrun, hfaithful, hext, -⟩ := loadCached_run hcache typeName
  exact ⟨cache', hrun, hfaithful, hext⟩

theorem transparent_traceCached (cp : ClassPath) (typeName methodName : String)
    (descriptor : Option String) (inlineLambdas : Bool) :
    Transparent cp (cp.traceCached typeName methodName descriptor inlineLambdas)
      (cp.trace typeName methodName descriptor inlineLambdas) :=
  (transparent_loadCached cp typeName).bind fun _ => transparent_lift _

/-! ## Sequences of loads -/

/-- Loads types one after the other. One that cannot be loaded does not keep the next ones from
being loaded. -/
def loadEach (cp : ClassPath) :
    List String → ClassCache → List (Except LoadError ClassFile) × ClassCache
  | [], cache => ([], cache)
  | typeName :: rest, cache =>
    let (found, between) := (cp.loadCached typeName).run cache
    let (others, last) := loadEach cp rest between
    (found :: others, last)

private theorem loadEach_run {cache : ClassCache} (hcache : cache.Faithful cp)
    (types : List String) :
    ∃ cache', loadEach cp types cache = (types.map cp.load, cache') ∧
      cache'.Faithful cp ∧ cache.Extends cache' ∧
      ∀ key, key ∈ cache'.keys ↔ key ∈ cache.keys ∨
        ∃ typeName ∈ types, key = Naming.dotted typeName ∧
          ∃ cls, cp.load typeName = .ok cls := by
  induction types generalizing cache with
  | nil => exact ⟨cache, rfl, hcache, .refl cache, by simp⟩
  | cons typeName rest ih =>
    obtain ⟨between, hrun, hbetween, hext, hkeys⟩ := loadCached_run hcache typeName
    obtain ⟨last, hrest, hlast, hext', hkeys'⟩ := ih hbetween
    refine ⟨last, ?_, hlast, hext.trans hext', fun key => ?_⟩
    · rw [loadEach, hrun]
      simp only [hrest, List.map_cons]
    · rw [hkeys', hkeys]
      simp [or_assoc]

/-- **The cache is transparent.** However loads follow each other, each one finds what it would find
without a cache. A class is parsed once, under whichever form of its name it is asked for, and what
cannot be loaded is not kept. -/
theorem loadEach_transparent (cp : ClassPath) (types : List String) :
    (loadEach cp types {}).1 = types.map cp.load ∧
    (loadEach cp types {}).2.keys.Nodup ∧
    ∀ key, key ∈ (loadEach cp types {}).2.keys ↔
      ∃ typeName ∈ types, key = Naming.dotted typeName ∧ ∃ cls, cp.load typeName = .ok cls := by
  obtain ⟨cache, hrun, -, hext, hkeys⟩ := loadEach_run (ClassCache.faithful_empty cp) types
  rw [hrun]
  refine ⟨rfl, hext.nodup List.nodup_nil, fun key => ?_⟩
  rw [hkeys]
  simp [ClassCache.keys]

end ClassPath

end EndpointAudit
