import CosmosSdk.Store.CacheKV.MergeIterator
import Mathlib.Data.List.AList

/-!
# The cache-wrapped key-value store

`cachekv.Store` (`store/cachekv/store.go`, `memiterator.go`): an in-memory map from keys to cached
values in front of a parent store.  A read that misses the cache fills it from the parent with a clean
entry; `Set` and `Delete` only write dirty entries; `Write` pushes the dirty entries to the parent in
sorted key order and empties the cache; an iterator merges the parent's iterator with the sorted dirty
entries of the domain, deletes carrying a `nil` value.

The Go map is an association list with distinct keys (`AList`); ranging over it visits its entries in
some order, which `Write` and `dirtyItems` then sort, so nothing depends on that order.  The parent is
any `KVStore`, in particular another cache (`cacheStore`).
-/

namespace CosmosSdk.CacheKV

/-- `cValue`: a value held by the cache.  A clean entry (`dirty = false`) is a copy of the parent's
value, `nil` if the parent lacks the key; a dirty entry is a pending `Set` or, with `deleted`, a pending
`Delete`. -/
structure CValue (V : Type) where
  value : Option V
  deleted : Bool
  dirty : Bool

/-- `cachekv.Store`: the cache and the state of the parent store. -/
structure Store (σ K V : Type) where
  cache : AList (fun _ : K => CValue V)
  parent : σ

variable {σ ι K V : Type} [LinearOrder K]

/-- `NewStore(parent)`. -/
def newStore (parent : σ) : Store σ K V := ⟨∅, parent⟩

/-- `setCacheValue`: the only entry point that mutates the cache. -/
def setCacheValue (s : Store σ K V) (key : K) (value : Option V) (deleted dirty : Bool) :
    Store σ K V :=
  { s with cache := s.cache.insert key ⟨value, deleted, dirty⟩ }

section Operations

variable (p : KVStore σ ι K V)

/-- `Get`: the cached value, or the parent's value, which is then cached as clean. -/
def get (s : Store σ K V) (key : K) : Option V × Store σ K V :=
  match s.cache.lookup key with
  | none =>
    let (value, parent) := p.get s.parent key
    (value, setCacheValue { s with parent := parent } key value false false)
  | some cacheValue => (cacheValue.value, s)

/-- `Set`: a dirty entry holding the value. -/
def set (s : Store σ K V) (key : K) (value : V) : Store σ K V :=
  setCacheValue s key (some value) false true

/-- `Has`: whether `Get` finds a value. -/
def has (s : Store σ K V) (key : K) : Bool × Store σ K V :=
  let (value, s) := get p s key
  (value.isSome, s)

/-- `Delete`: a dirty entry marked deleted. -/
def delete (s : Store σ K V) (key : K) : Store σ K V :=
  setCacheValue s key none true true

/-- The body of `Write`'s loop: apply the cache entry at `key` to the parent. -/
def writeKey (cache : AList (fun _ : K => CValue V)) (parent : σ) (key : K) : σ :=
  match cache.lookup key with
  | some cacheValue =>
    if cacheValue.deleted then p.delete parent key
    else match cacheValue.value with
      | none => parent  -- it already doesn't exist in the parent
      | some value => p.set parent key value
  | none => parent

/-- `Write`: apply the dirty entries to the parent in sorted key order, then clear the cache. -/
def write (s : Store σ K V) : Store σ K V :=
  let keys := ((s.cache.entries.filter (·.2.dirty)).map (·.1)).mergeSort (· ≤ ·)
  { cache := ∅, parent := keys.foldl (writeKey p s.cache) s.parent }

end Operations

/-- `dirtyItems(start, end, ascending)`: the dirty entries in the domain, as key and value pairs
(`nil` for a delete), sorted ascending or descending by key. -/
def dirtyItems (s : Store σ K V) (start end_ : Option K) (ascending : Bool) :
    List (K × Option V) :=
  let items := (s.cache.entries.filter fun e => e.2.dirty && isKeyInDomain e.1 start end_).map
    fun e => (e.1, e.2.value)
  items.mergeSort fun a b => if ascending then a.1 ≤ b.1 else b.1 ≤ a.1

/-- `newMemIterator(start, end, items)`: the items in the domain; the iterator's state is this list. -/
def newMemIterator (start end_ : Option K) (items : List (K × Option V)) : List (K × Option V) :=
  items.filter fun item => isKeyInDomain item.1 start end_

/-- `iterator(start, end, ascending)`: the merge of the parent's iterator and the dirty items. -/
def iterator (p : KVStore σ ι K V) (s : Store σ K V) (start end_ : Option K) (ascending : Bool) :
    CacheMergeIterator ι K V :=
  newCacheMergeIterator (p.iterator s.parent start end_ ascending)
    (newMemIterator start end_ (dirtyItems s start end_ ascending)) ascending

/-- The cache as a store in its own right, so that it can be cache-wrapped again (`CacheWrap`). -/
def cacheStore (p : KVStore σ ι K V) : KVStore (Store σ K V) (CacheMergeIterator ι K V) K V where
  get := get p
  set := set
  delete := delete
  iterator := iterator p
  cursor := mergeCursor p.cursor

/-- Over a bounded parent, the cache's iterators are bounded. -/
def cacheBounded {p : KVStore σ ι K V} (b : p.cursor.Bounded) : (cacheStore p).cursor.Bounded :=
  mergeBounded b

end CosmosSdk.CacheKV
