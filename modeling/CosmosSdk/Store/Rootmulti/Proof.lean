import CosmosSdk.Lib.FinmapFold

/-!
# Multistore proofs

The proof that a substore root is committed under an app hash (`store/rootmulti/proof.go`), and the
commit hash it is checked against (`commitInfo.Hash` of `store/rootmulti/store.go`).

`commitInfo.Hash` enters the store infos into a Go map by name and hashes the map with
`SimpleHashFromMap`.  A later entry of a name replaces an earlier one.  `MultiStoreProofOp.Run`
accepts a value when the *first* entry of the key's name carries it as its commit hash, and returns
the root `ComputeRootHash` computes from the whole list.  The decoder takes any list the codec can
encode, so a proof may name one store twice.  An entry placed before the committed one is what `Run`
checks, and the map then replaces it.  So a commit's store infos with a forged entry in front make a
proof that `Run` accepts for any value, against the commit's own hash (`run_forged_entry`).  Where
the names of a proof are distinct, an accepted value is the one the root commits
(`vouches_of_run_eq_ok`).  The names of a commit are distinct, since `MountStoreWithDB` rejects a
second store of a name, and the proof `Query` builds from a commit verifies every committed hash
against the commit's hash (`run_queryProof`).

The hashes are parameters (`Hasher`).  `storeInfo.Hash` is tmhash of the amino encoding of the core,
here into a digest type of its own, and `SimpleHashFromMap` sees the map only.  The codec of proofs
is a parameter too: decoding what it encoded gives it back.  Store keys are their names.
-/

namespace CosmosSdk.Rootmulti

/-- A byte string, `[]byte`. -/
abbrev Bytes := List UInt8

/-- `types.CommitID`. -/
structure CommitID where
  version : Int
  hash : Bytes
  deriving DecidableEq

/-- `storeCore`. -/
structure StoreCore where
  commitID : CommitID
  deriving DecidableEq

/-- `storeInfo`: a store's name and core, a leaf of the commit's tree. -/
structure StoreInfo where
  name : String
  core : StoreCore
  deriving DecidableEq

/-- `commitInfo`. -/
structure CommitInfo where
  version : Int
  storeInfos : List StoreInfo

/-- The hash functions, with the digests of `storeInfo.Hash` in `δ`. -/
structure Hasher (δ : Type) where
  /-- tmhash of `MarshalBinaryLengthPrefixed(si.Core)`. -/
  storeCoreHash : StoreCore → δ
  /-- `merkle.SimpleHashFromMap`: the hash of the map's sorted key-value pairs. -/
  simpleHashFromMap : Finmap (fun _ : String => δ) → Bytes

/-- The codec of `MultiStoreProofOp`'s proof: decoding what it encoded gives it back. -/
structure Codec (P : Type) where
  encode : P → Bytes
  decode : Bytes → Option P
  decode_encode : ∀ proof, decode (encode proof) = some proof

section Hash

variable {δ : Type} (H : Hasher δ)

/-- `storeInfo.Hash`: the name is left out, as `SimpleHashFromMap` hashes it with the key. -/
def StoreInfo.hash (si : StoreInfo) : δ := H.storeCoreHash si.core

/-- The map `commitInfo.Hash` fills: each store info's hash under its name. -/
def CommitInfo.hashMap (ci : CommitInfo) : Finmap (fun _ : String => δ) :=
  ci.storeInfos.foldl (fun m storeInfo => m.insert storeInfo.name (storeInfo.hash H)) ∅

/-- `commitInfo.Hash`. -/
def CommitInfo.hash (ci : CommitInfo) : Bytes := H.simpleHashFromMap (ci.hashMap H)

end Hash

/-! ### The proof operator -/

/-- `MultiStoreProof`. -/
structure MultiStoreProof where
  storeInfos : List StoreInfo
  deriving DecidableEq

/-- `ProofOpMultiStore`. -/
def proofOpMultiStore : String := "multistore"

/-- `MultiStoreProofOp`: the store name, carried in `ProofOp.Key`, and the proof. -/
structure MultiStoreProofOp where
  key : String
  proof : MultiStoreProof
  deriving DecidableEq

/-- `merkle.ProofOp`. -/
structure ProofOp where
  type : String
  key : String
  data : Bytes

/-- The errors of `MultiStoreProofOpDecoder`. -/
inductive DecodeError where
  /-- `unexpected ProofOp.Type; got %v, want %v` -/
  | unexpectedType (got : String)
  /-- `decoding ProofOp.Data into MultiStoreProofOp` -/
  | decoding
  deriving DecidableEq

/-- The errors of `Run`. -/
inductive RunError where
  /-- `Value size is not 1` -/
  | valueSize
  /-- `hash mismatch for substore %v: %X vs %X`, with the name, the stored hash and the value. -/
  | hashMismatch (name : String) (stored value : Bytes)
  /-- `key %v not found in multistore proof` -/
  | keyNotFound (key : String)
  deriving DecidableEq

section Op

variable {δ : Type} (H : Hasher δ) (C : Codec MultiStoreProof)

/-- `ComputeRootHash`: the hash of a commit of these store infos at version `-1`. -/
def MultiStoreProof.computeRootHash (proof : MultiStoreProof) : Bytes :=
  (⟨-1, proof.storeInfos⟩ : CommitInfo).hash H

/-- `MultiStoreProofOpDecoder`. -/
def multiStoreProofOpDecoder (pop : ProofOp) : Except DecodeError MultiStoreProofOp :=
  if pop.type ≠ proofOpMultiStore then .error (.unexpectedType pop.type)
  else
    match C.decode pop.data with
    | some proof => .ok ⟨pop.key, proof⟩
    | none => .error .decoding

/-- `MultiStoreProofOp.ProofOp`. -/
def MultiStoreProofOp.proofOp (op : MultiStoreProofOp) : ProofOp :=
  ⟨proofOpMultiStore, op.key, C.encode op.proof⟩

/-- `MultiStoreProofOp.Run`: the first store info of the key's name decides. -/
def MultiStoreProofOp.run (op : MultiStoreProofOp) (args : List Bytes) :
    Except RunError (List Bytes) :=
  match args with
  | [value] =>
    let root := op.proof.computeRootHash H
    match op.proof.storeInfos.find? (·.name = op.key) with
    | some si =>
      if value = si.core.commitID.hash then .ok [root]
      else .error (.hashMismatch si.name si.core.commitID.hash value)
    | none => .error (.keyNotFound op.key)
  | _ => .error .valueSize

end Op

/-! ### Commits and queries -/

/-- `types.StoreType`. -/
inductive StoreType where
  | multi | db | iavl | transient
  deriving DecidableEq

/-- A mounted store as `commitStores` sees it: its key's name, its type, and the commit ID its
`Commit` returns. -/
structure CommitStore where
  name : String
  storeType : StoreType
  commitID : CommitID

/-- The stores of a root multistore.  `MountStoreWithDB` panics on a second store of a name, so the
names are distinct. -/
structure Stores where
  stores : List CommitStore
  nodup : (stores.map CommitStore.name).Nodup

/-- `commitStores`: every store commits, and each one that is not transient is recorded.  The order is
that of the Go map, which the model leaves open: `stores` is in any order. -/
def commitStores (version : Int) (stores : Stores) : CommitInfo :=
  ⟨version, stores.stores.filterMap fun store =>
    if store.storeType = .transient then none else some ⟨store.name, ⟨store.commitID⟩⟩⟩

/-- The proof `Store.Query` appends for the store `storeName`: the store infos of the commit at the
queried height. -/
def queryProof (storeName : String) (ci : CommitInfo) : MultiStoreProofOp :=
  ⟨storeName, ⟨ci.storeInfos⟩⟩

/-! ### The map of a commit -/

section Map

variable {δ : Type} (H : Hasher δ)

private theorem recorded_names_sublist (l : List CommitStore) :
    ((l.filterMap fun store => if store.storeType = .transient then none
        else some (⟨store.name, ⟨store.commitID⟩⟩ : StoreInfo)).map StoreInfo.name).Sublist
      (l.map CommitStore.name) := by
  induction l with
  | nil => exact .slnil
  | cons store l ih =>
    by_cases htransient : store.storeType = .transient
    · simp only [List.filterMap_cons, htransient, if_true, List.map_cons]
      exact ih.cons _
    · simp only [List.filterMap_cons, htransient, if_false, List.map_cons]
      exact ih.cons_cons _

/-- A commit records each store at most once: its names are distinct. -/
theorem commitStores_names_nodup (version : Int) (stores : Stores) :
    ((commitStores version stores).storeInfos.map StoreInfo.name).Nodup :=
  stores.nodup.sublist (recorded_names_sublist stores.stores)

/-- With distinct names, the map holds each store info's hash under its name. -/
theorem hashMap_lookup_of_mem {ci : CommitInfo} (hnodup : (ci.storeInfos.map StoreInfo.name).Nodup)
    {si : StoreInfo} (hsi : si ∈ ci.storeInfos) : (ci.hashMap H).lookup si.name = some (si.hash H) :=
  Finmap.lookup_foldl_insert_of_mem StoreInfo.name (StoreInfo.hash H) ∅ hnodup hsi

/-- An entry in front of a commit's store infos that names one of them is replaced in the map. -/
theorem hashMap_cons_of_mem (si : StoreInfo) (ci : CommitInfo) (version : Int)
    (hname : si.name ∈ ci.storeInfos.map StoreInfo.name) :
    CommitInfo.hashMap H ⟨version, si :: ci.storeInfos⟩ = ci.hashMap H := by
  unfold CommitInfo.hashMap
  rw [List.foldl_cons]
  apply Finmap.foldl_insert_congr StoreInfo.name (StoreInfo.hash H) ci.storeInfos
  intro a ha
  have hne : a ≠ si.name := fun h => ha (h ▸ hname)
  rw [Finmap.lookup_insert_of_ne _ hne]

/-- With distinct names, the first store info of a name is the only one. -/
theorem find?_name_of_mem {infos : List StoreInfo} (hnodup : (infos.map StoreInfo.name).Nodup)
    {si : StoreInfo} (hsi : si ∈ infos) : infos.find? (·.name = si.name) = some si := by
  induction infos with
  | nil => cases hsi
  | cons y ys ih =>
    rw [List.map_cons, List.nodup_cons] at hnodup
    rcases List.mem_cons.1 hsi with rfl | hsi
    · exact List.find?_cons_of_pos (by simp)
    · have hne : y.name ≠ si.name := fun h => hnodup.1 (h ▸ List.mem_map_of_mem hsi)
      rw [List.find?_cons_of_neg (by simpa using hne)]
      exact ih hnodup.2 hsi

end Map

/-! ### What `Run` accepts -/

section Run

variable {δ : Type} (H : Hasher δ)

/-- What an accepted value should be: the map the root is computed from holds, under the key, the
hash of a core committed with the value as its hash. -/
def Vouches (proof : MultiStoreProof) (key : String) (value : Bytes) : Prop :=
  ∃ core : StoreCore, ((⟨-1, proof.storeInfos⟩ : CommitInfo).hashMap H).lookup key =
    some (H.storeCoreHash core) ∧ core.commitID.hash = value

/-- `Run` returns the root of the whole proof, once the first store info of the key's name carries
the value. -/
theorem run_eq_ok {op : MultiStoreProofOp} {args r : List Bytes} (h : op.run H args = .ok r) :
    ∃ value si, args = [value] ∧ r = [op.proof.computeRootHash H] ∧
      op.proof.storeInfos.find? (·.name = op.key) = some si ∧ si.core.commitID.hash = value := by
  match args, h with
  | [value], h =>
    unfold MultiStoreProofOp.run at h
    cases hfind : op.proof.storeInfos.find? (·.name = op.key) with
    | none => simp [hfind] at h
    | some si =>
      simp only [hfind] at h
      split at h
      · rename_i hvalue
        cases h
        exact ⟨value, si, rfl, rfl, rfl, hvalue.symm⟩
      · cases h

/-- `Run` accepts the commit hash of the first store info of the key's name. -/
theorem run_of_find? {op : MultiStoreProofOp} {si : StoreInfo}
    (hfind : op.proof.storeInfos.find? (·.name = op.key) = some si) (value : Bytes)
    (hvalue : si.core.commitID.hash = value) : op.run H [value] = .ok [op.proof.computeRootHash H] := by
  simp only [MultiStoreProofOp.run, hfind, hvalue, ite_true]

/-- Where the names of a proof are distinct, an accepted value is the one its root commits. -/
theorem vouches_of_run_eq_ok {op : MultiStoreProofOp}
    (hnodup : (op.proof.storeInfos.map StoreInfo.name).Nodup) {value : Bytes} {r : List Bytes}
    (h : op.run H [value] = .ok r) : Vouches H op.proof op.key value := by
  obtain ⟨value', si, hargs, -, hfind, hhash⟩ := run_eq_ok H h
  obtain rfl : value = value' := List.head_eq_of_cons_eq hargs
  have hsi : si ∈ op.proof.storeInfos := List.mem_of_find?_eq_some hfind
  have hname : si.name = op.key := by simpa using List.find?_some hfind
  refine ⟨si.core, ?_, hhash⟩
  rw [← hname]
  exact hashMap_lookup_of_mem H hnodup hsi

/-- The decoder gives back the op its `ProofOp` encodes. -/
theorem multiStoreProofOpDecoder_proofOp (C : Codec MultiStoreProof) (op : MultiStoreProofOp) :
    multiStoreProofOpDecoder C (op.proofOp C) = .ok op := by
  simp [multiStoreProofOpDecoder, MultiStoreProofOp.proofOp, C.decode_encode]

/-- A forged store info in front of a commit's store infos: `Run` accepts its value against the
commit's hash, while the map that hash comes from holds the committed core's hash under the name.
Where store cores do not collide, that is the hash of no core with the forged value. -/
theorem run_forged_entry (hinj : Function.Injective H.storeCoreHash) (version : Int)
    (stores : Stores) (si : StoreInfo) (hsi : si ∈ (commitStores version stores).storeInfos)
    (value : Bytes) (hvalue : value ≠ si.core.commitID.hash) :
    (⟨si.name, ⟨⟨si.name, ⟨⟨version, value⟩⟩⟩ :: (commitStores version stores).storeInfos⟩⟩ :
        MultiStoreProofOp).run H [value] = .ok [(commitStores version stores).hash H] ∧
      ¬ Vouches H ⟨⟨si.name, ⟨⟨version, value⟩⟩⟩ :: (commitStores version stores).storeInfos⟩
        si.name value := by
  have hname : si.name ∈ (commitStores version stores).storeInfos.map StoreInfo.name :=
    List.mem_map_of_mem hsi
  -- the map of the forged proof is the commit's: the forged entry is replaced
  have hmap := hashMap_cons_of_mem H ⟨si.name, ⟨⟨version, value⟩⟩⟩ (commitStores version stores) (-1)
    hname
  constructor
  · rw [run_of_find? H (List.find?_cons_of_pos (by simp)) value rfl]
    simp only [MultiStoreProof.computeRootHash, CommitInfo.hash, hmap]
  · rintro ⟨core, hlookup, hcore⟩
    rw [hmap, hashMap_lookup_of_mem H (commitStores_names_nodup version stores) hsi] at hlookup
    have hsame : si.core = core := hinj (Option.some.inj hlookup)
    exact hvalue (hcore ▸ hsame ▸ rfl)

theorem run_forged_entry_bank :
    Function.Injective (⟨id, fun _ => []⟩ : Hasher StoreCore).storeCoreHash ∧
      (⟨"bank", ⟨⟨1, [7]⟩⟩⟩ : StoreInfo) ∈
        (commitStores 1 ⟨[⟨"bank", .iavl, ⟨1, [7]⟩⟩], List.nodup_singleton _⟩).storeInfos ∧
      ([0] : Bytes) ≠ [7] ∧
      (⟨"bank", ⟨⟨"bank", ⟨⟨1, [0]⟩⟩⟩ ::
          (commitStores 1 ⟨[⟨"bank", .iavl, ⟨1, [7]⟩⟩], List.nodup_singleton _⟩).storeInfos⟩⟩ :
            MultiStoreProofOp).run ⟨id, fun _ => []⟩ [[0]] =
          .ok [(commitStores 1 ⟨[⟨"bank", .iavl, ⟨1, [7]⟩⟩], List.nodup_singleton _⟩).hash
            ⟨id, fun _ => []⟩] ∧
        ¬ Vouches ⟨id, fun _ => []⟩ ⟨⟨"bank", ⟨⟨1, [0]⟩⟩⟩ ::
          (commitStores 1 ⟨[⟨"bank", .iavl, ⟨1, [7]⟩⟩], List.nodup_singleton _⟩).storeInfos⟩
          "bank" [0] :=
  ⟨Function.injective_id, by decide, by decide,
    run_forged_entry ⟨id, fun _ => []⟩ Function.injective_id 1 _ ⟨"bank", ⟨⟨1, [7]⟩⟩⟩ (by decide)
      [0] (by decide)⟩

/-- The proof `Query` builds from a commit verifies each committed hash against the commit's hash. -/
theorem run_queryProof (version : Int) (stores : Stores) (si : StoreInfo)
    (hsi : si ∈ (commitStores version stores).storeInfos) :
    (queryProof si.name (commitStores version stores)).run H [si.core.commitID.hash] =
      .ok [(commitStores version stores).hash H] :=
  run_of_find? H (find?_name_of_mem (commitStores_names_nodup version stores) hsi) _ rfl

theorem run_queryProof_bank :
    (⟨"bank", ⟨⟨1, [7]⟩⟩⟩ : StoreInfo) ∈
        (commitStores 1 ⟨[⟨"bank", .iavl, ⟨1, [7]⟩⟩], List.nodup_singleton _⟩).storeInfos ∧
      (queryProof "bank" (commitStores 1 ⟨[⟨"bank", .iavl, ⟨1, [7]⟩⟩], List.nodup_singleton _⟩)).run
          (⟨id, fun _ => []⟩ : Hasher StoreCore) [[7]] =
        .ok [(commitStores 1 ⟨[⟨"bank", .iavl, ⟨1, [7]⟩⟩], List.nodup_singleton _⟩).hash
          ⟨id, fun _ => []⟩] :=
  ⟨by decide, run_queryProof ⟨id, fun _ => []⟩ 1 _ ⟨"bank", ⟨⟨1, [7]⟩⟩⟩ (by decide)⟩

end Run

end CosmosSdk.Rootmulti
