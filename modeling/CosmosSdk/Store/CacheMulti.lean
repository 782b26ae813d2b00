import CosmosSdk.Store.CacheKV.Refinement

/-!
# Cache-wrapped multistores

A multistore (`types.MultiStore`) holds one key-value store per store key; its state here is a function
from store keys `S` to the states of one store type.  `CacheMultiStore()` (`store/cachemulti/store.go`)
wraps every substore in a `cachekv.Store`, and the wrapper's `Write` writes each of them back.

`MultiRel R ms M` says that every substore of `ms` stands for the map `M` holds under the same key.

`Simulates R x y` relates a run on a multistore to a run on maps: the same outcome, and final states
related by `MultiRel R`.

* `multiRel_cacheMultiStore`: a fresh cache multistore stands for what its parent stands for.
* `MultiRel.write`: after `Write`, the parent stands for what the cache stood for.
-/

namespace CosmosSdk

variable {S σ ι K V : Type}

/-- Every substore of `ms` stands for the map of `M` under the same store key. -/
def MultiRel (R : σ → MemDB K V → Prop) (ms : S → σ) (M : S → MemDB K V) : Prop :=
  ∀ sk, R (ms sk) (M sk)

theorem MultiRel.update [DecidableEq S] {R : σ → MemDB K V → Prop} {ms : S → σ}
    {M : S → MemDB K V} (h : MultiRel R ms M) (sk : S) {s : σ} {m : MemDB K V} (hs : R s m) :
    MultiRel R (Function.update ms sk s) (Function.update M sk m) := by
  intro sk'
  by_cases hsk : sk' = sk
  · subst hsk
    simpa using hs
  · simpa [Function.update_of_ne hsk] using h sk'

/-- A run on a multistore ends like a run on maps: the same outcome, in corresponding states. -/
def Simulates {α : Type} (R : σ → MemDB K V → Prop) (x : α × (S → σ)) (y : α × (S → MemDB K V)) :
    Prop :=
  x.1 = y.1 ∧ MultiRel R x.2 y.2

/-- Inversion: the two runs end with the same outcome, in related states. -/
theorem Simulates.exists_eq {α : Type} {R : σ → MemDB K V → Prop} {x : α × (S → σ)}
    {y : α × (S → MemDB K V)} (h : Simulates R x y) :
    ∃ a ms Ms, x = (a, ms) ∧ y = (a, Ms) ∧ MultiRel R ms Ms := by
  obtain ⟨hout, hrel⟩ := h
  exact ⟨x.1, x.2, y.2, rfl, by rw [hout], hrel⟩

namespace CacheMulti

variable [LinearOrder K]

/-- `CacheMultiStore()`: a fresh `cachekv.Store` over every substore. -/
def cacheMultiStore (ms : S → σ) : S → CacheKV.Store σ K V :=
  fun sk => CacheKV.newStore (ms sk)

/-- `cachemulti.Store.Write`: every substore's cache is written to its parent. -/
def write (p : KVStore σ ι K V) (cms : S → CacheKV.Store σ K V) : S → σ :=
  fun sk => (CacheKV.write p (cms sk)).parent

variable {p : KVStore σ ι K V} {Rp : σ → MemDB K V → Prop} {M : S → MemDB K V}

theorem multiRel_cacheMultiStore {ms : S → σ} (h : MultiRel Rp ms M) :
    MultiRel (CacheKV.CacheRel Rp) (cacheMultiStore ms) M :=
  fun sk => CacheKV.cacheRel_newStore (h sk)

theorem MultiRel.write (hp : Implements p Rp) {cms : S → CacheKV.Store σ K V}
    (h : MultiRel (CacheKV.CacheRel Rp) cms M) : MultiRel Rp (write p cms) M :=
  fun sk => ((h sk).write hp).1

end CacheMulti

end CosmosSdk
