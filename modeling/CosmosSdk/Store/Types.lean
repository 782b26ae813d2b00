import CosmosSdk.Lib.Cursor
import CosmosSdk.Lib.Overlay
import Mathlib.Data.Finmap
import Mathlib.Data.Finset.Sort

/-!
# Key-value stores

The part of `types.KVStore` that `cachekv.Store` relies on (`store/types/store.go`): `Get`, `Set`,
`Delete`, and `Iterator`/`ReverseIterator` over the domain `[start, end)`, where a `nil` bound does not
constrain (`IsKeyInDomain`).  Keys are drawn from an arbitrary linear order, playing the part of byte
strings under `bytes.Compare`; a missing bound is `none`.

`MemDB` is the plain in-memory map a store stands for: a finite map whose iterators list its entries in
the domain, in key order (`MemDB.listing`).  `Implements st R` says that every state of the store `st`
related by `R` to a map behaves as that map, under every operation: the refinement notion the cache is
proved against.
-/

namespace CosmosSdk

variable {σ ι K V : Type} [LinearOrder K]

/-- `dbm.IsKeyInDomain`: `start ≤ key < end`, a missing bound not constraining. -/
def isKeyInDomain (key : K) (start end_ : Option K) : Bool :=
  start.all (· ≤ key) && end_.all (key < ·)

theorem isKeyInDomain_iff {key : K} {start end_ : Option K} :
    isKeyInDomain key start end_ = true ↔ (∀ s ∈ start, s ≤ key) ∧ ∀ e ∈ end_, key < e := by
  cases start <;> cases end_ <;> simp [isKeyInDomain]

/-- The operations of `types.KVStore` over store states `σ` and iterator states `ι`;
`iterator s start end_ ascending` is `Iterator(start, end)` when `ascending` holds and
`ReverseIterator(start, end)` otherwise.  `get` returns the next state, since reading a cache fills it. -/
structure KVStore (σ ι K V : Type) where
  get : σ → K → Option V × σ
  set : σ → K → V → σ
  delete : σ → K → σ
  iterator : σ → Option K → Option K → Bool → ι
  cursor : Cursor ι (K × V)

/-- A plain in-memory map. -/
abbrev MemDB (K V : Type) := Finmap (fun _ : K => V)

-- The laws `Finset.sort` asks of `≤`, read off the linear order itself: every sort of keys in the
-- development takes them from here.
instance linearOrder_isTrans_le {α : Type} [LinearOrder α] : IsTrans α (· ≤ ·) :=
  ⟨fun _ _ _ => le_trans⟩

instance linearOrder_antisymm_le {α : Type} [LinearOrder α] : Std.Antisymm (α := α) (· ≤ ·) :=
  ⟨fun _ _ => le_antisymm⟩

namespace MemDB

/-- The entries of `m` whose key lies in `[start, end)`, ascending or descending. -/
def listing (m : MemDB K V) (start end_ : Option K) (ascending : Bool) : List (K × V) :=
  let keys := (m.keys.filter fun k => isKeyInDomain k start end_).sort
  (if ascending then keys else keys.reverse).filterMap fun k => (m.lookup k).map (k, ·)

/-- `L` lists exactly the entries of `m` in `[start, end)`, each once, by strictly ascending keys when
`ascending` holds and strictly descending ones otherwise. -/
def IsListing (m : MemDB K V) (start end_ : Option K) (ascending : Bool) (L : List (K × V)) :
    Prop :=
  (if ascending then Overlay.StrictKeys L else Overlay.StrictKeys (K := Kᵒᵈ) L) ∧
    ∀ k v, (k, v) ∈ L ↔ m.lookup k = some v ∧ isKeyInDomain k start end_ = true

private theorem mem_listing_keys {m : MemDB K V} {start end_ : Option K} {k : K} :
    k ∈ (m.keys.filter fun k => isKeyInDomain k start end_).sort ↔
      (m.lookup k).isSome ∧ isKeyInDomain k start end_ = true := by
  rw [Finset.mem_sort, Finset.mem_filter, Finmap.mem_keys, Finmap.lookup_isSome]

theorem listing_isListing (m : MemDB K V) (start end_ : Option K) (ascending : Bool) :
    m.IsListing start end_ ascending (m.listing start end_ ascending) := by
  set keys := (m.keys.filter fun k => isKeyInDomain k start end_).sort with hkeys
  have hsorted : keys.Pairwise (· < ·) := List.sortedLT_iff_pairwise.1 (Finset.sortedLT_sort _)
  -- the listing maps each key of `keys` to its entry, so it inherits the order of `keys`
  have hmap : ∀ (R : K → K → Prop) (ks : List K), ks.Pairwise R →
      (ks.filterMap fun k => (m.lookup k).map (k, ·)).Pairwise (fun a b => R a.1 b.1) := by
    intro R ks hks
    refine List.Pairwise.filterMap _ (fun a b hab e he e' he' => ?_) hks
    simp only [Option.map_eq_some_iff] at he he'
    obtain ⟨_, -, rfl⟩ := he
    obtain ⟨_, -, rfl⟩ := he'
    exact hab
  refine ⟨?_, fun k v => ?_⟩
  · cases ascending
    · exact hmap (fun a b => b < a) _ (List.pairwise_reverse.2 hsorted)
    · exact hmap (· < ·) _ hsorted
  · have hmem : (k ∈ if ascending then keys else keys.reverse) ↔ k ∈ keys := by
      cases ascending <;> simp
    simp only [listing, ← hkeys, List.mem_filterMap, Option.map_eq_some_iff, Prod.mk.injEq]
    constructor
    · rintro ⟨k', hk', v', hv', rfl, rfl⟩
      exact ⟨hv', (mem_listing_keys.1 (hmem.1 hk')).2⟩
    · rintro ⟨hv, hd⟩
      exact ⟨k, hmem.2 (mem_listing_keys.2 ⟨by simp [hv], hd⟩), v, hv, rfl, rfl⟩

/-- Two listings of the same entries in the same direction are equal. -/
theorem IsListing.unique {m : MemDB K V} {start end_ : Option K} {ascending : Bool}
    {L₁ L₂ : List (K × V)} (h₁ : m.IsListing start end_ ascending L₁)
    (h₂ : m.IsListing start end_ ascending L₂) : L₁ = L₂ := by
  have hmem : ∀ e, e ∈ L₁ ↔ e ∈ L₂ := fun e => (h₁.2 e.1 e.2).trans (h₂.2 e.1 e.2).symm
  cases ascending
  · exact Overlay.StrictKeys.eq_of_mem_iff (K := Kᵒᵈ) h₁.1 h₂.1 hmem
  · exact Overlay.StrictKeys.eq_of_mem_iff h₁.1 h₂.1 hmem

end MemDB

/-- The plain map as a store: reads leave it unchanged and iterators walk its listing. -/
def memDB : KVStore (MemDB K V) (List (K × V)) K V where
  get m k := (m.lookup k, m)
  set m k v := m.insert k v
  delete m k := m.erase k
  iterator := MemDB.listing
  cursor := Cursor.ofList

@[simp] theorem memDB_get (m : MemDB K V) (k : K) : memDB.get m k = (m.lookup k, m) := rfl

@[simp] theorem memDB_iterator (m : MemDB K V) (start end_ : Option K) (ascending : Bool) :
    memDB.iterator m start end_ ascending = m.listing start end_ ascending := rfl

/-- Every state of `st` related by `R` to a plain map behaves as that map: reads return its values,
writes and deletes update it, and iterators list its entries in the domain. -/
structure Implements (st : KVStore σ ι K V) (R : σ → MemDB K V → Prop) : Prop where
  get {s : σ} {m : MemDB K V} (k : K) : R s m → (st.get s k).1 = m.lookup k ∧ R (st.get s k).2 m
  set {s : σ} {m : MemDB K V} (k : K) (v : V) : R s m → R (st.set s k v) (m.insert k v)
  delete {s : σ} {m : MemDB K V} (k : K) : R s m → R (st.delete s k) (m.erase k)
  iterator {s : σ} {m : MemDB K V} (start end_ : Option K) (ascending : Bool) : R s m →
    st.cursor.Yields (st.iterator s start end_ ascending) (m.listing start end_ ascending)

theorem memDB_implements : Implements (memDB (K := K) (V := V)) Eq where
  get _ h := ⟨by subst h; rfl, h⟩
  set _ _ h := by subst h; rfl
  delete _ h := by subst h; rfl
  iterator _ _ _ h := by subst h; exact Cursor.ofList_yields _

/-- The plain map's iterators are bounded by the length of their listing. -/
def memDBBounded : (memDB (K := K) (V := V)).cursor.Bounded := Cursor.ofListBounded

@[simp] theorem memDBBounded_toList (L : List (K × V)) : memDBBounded.toList L = L :=
  Cursor.ofListBounded_toList L

/-- Draining an iterator of a store that implements `m` gives `m`'s listing. -/
theorem Implements.toList_iterator {st : KVStore σ ι K V} {R : σ → MemDB K V → Prop}
    (hp : Implements st R) (b : st.cursor.Bounded) {s : σ} {m : MemDB K V} (h : R s m)
    (start end_ : Option K) (ascending : Bool) :
    b.toList (st.iterator s start end_ ascending) = m.listing start end_ ascending :=
  b.toList_eq (hp.iterator start end_ ascending h)

end CosmosSdk
