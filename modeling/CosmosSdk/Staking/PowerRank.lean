import CosmosSdk.Lib.ByteKey
import CosmosSdk.Store.Prefix
import CosmosSdk.Staking.Keeper

/-!
# Power-rank keys

The model keeps the power index of the staking store under typed keys, `PowerKey`, ordered by power
and then by operator address, reversed.  In the code the key is a byte string (`keeper/key.go`):
`getValidatorPowerRank` writes the prefix `0x23`, the validator's `Tokens.Int64()` as a big-endian
`uint64`, and the operator address with every byte complemented, copied into the `sdk.AddrLen` bytes
left of the key; `parseValidatorPowerRankKey` complements the address bytes back.

`PowerKey.toBytes` is that layout for a typed key, and the byte-level `getValidatorPowerRank` is the
typed one followed by it (`getValidatorPowerRank_eq_map_toBytes`).  For powers below `2 ^ 64` and
addresses of `AddrLen` bytes (`PowerKey.Fits`), the bytes compare as the typed keys do
(`toBytes_lt_toBytes_iff`): iterating the byte store walks the index in the model's order.  They also
tell keys apart (`toBytes_inj`), and the parser reads the address back
(`parseValidatorPowerRankKey_toBytes`).
-/

namespace CosmosSdk.Staking

open ByteKey

/-- `sdk.AddrLen`. -/
def addrLen : Nat := 20

/-- `ValidatorsByPowerIndexKey`. -/
def validatorsByPowerIndexKey : List UInt8 := [0x23]

namespace KeyBytes

/-- `getValidatorPowerRank`, byte for byte. -/
def getValidatorPowerRank (validator : Validator (List UInt8)) : Except Panic (List UInt8) := do
  let tendermintPower ← SdkInt.int64 validator.tokens
  -- `uint64(tendermintPower)`
  let powerBytes := bigEndian 8 (tendermintPower % 2 ^ 64).toNat
  let operAddrInvr := validator.operatorAddress.map (~~~·)
  -- `make([]byte, 1+powerBytesLen+sdk.AddrLen)`: the first byte is the prefix's, and the two `copy`
  -- calls fill the power bytes and the address bytes
  pure (validatorsByPowerIndexKey.take 1 ++ sliceCopy (List.replicate powerBytes.length 0) powerBytes ++
    sliceCopy (List.replicate addrLen 0) operAddrInvr)

/-- `parseValidatorPowerRankKey`. -/
def parseValidatorPowerRankKey (key : List UInt8) : Except Panic (List UInt8) :=
  let powerBytesLen := 8
  if key.length ≠ 1 + powerBytesLen + addrLen then
    throw (.other "Invalid validator power rank key length")
  else pure ((key.drop (powerBytesLen + 1)).map (~~~·))

end KeyBytes

namespace PowerKey

theorem lt_iff {A : Type} [LinearOrder A] {k₁ k₂ : PowerKey A} :
    k₁ < k₂ ↔ k₁.power < k₂.power ∨ k₁.power = k₂.power ∧ k₂.operator < k₁.operator := by
  change k₁.rank < k₂.rank ↔ _
  rw [rank, rank, Prod.Lex.toLex_lt_toLex, OrderDual.toDual_lt_toDual]

/-- The bytes of a key: the prefix, the power as a big-endian `uint64`, and the operator address
complemented, copied into `AddrLen` bytes. -/
def toBytes (key : PowerKey (List UInt8)) : List UInt8 :=
  validatorsByPowerIndexKey ++ bigEndian 8 key.power ++
    sliceCopy (List.replicate addrLen 0) (key.operator.map (~~~·))

/-- The power fits in a `uint64` and the operator address has `AddrLen` bytes. -/
def Fits (key : PowerKey (List UInt8)) : Prop := key.power < 2 ^ 64 ∧ key.operator.length = addrLen

variable {key k₁ k₂ : PowerKey (List UInt8)}

theorem Fits.power_lt (h : key.Fits) : key.power < 256 ^ 8 :=
  lt_of_lt_of_eq h.1 (by norm_num)

/-- The address of a key that fits fills its bytes exactly. -/
theorem toBytes_of_fits (h : key.Fits) :
    key.toBytes = validatorsByPowerIndexKey ++ (bigEndian 8 key.power ++ key.operator.map (~~~·)) := by
  rw [toBytes, sliceCopy_of_length_eq (by simpa using h.2), List.append_assoc]

theorem toBytes_lt_toBytes_iff (h₁ : k₁.Fits) (h₂ : k₂.Fits) : k₁.toBytes < k₂.toBytes ↔ k₁ < k₂ := by
  -- past the common prefix, the power bytes have one width: compare them, then the addresses
  rw [toBytes_of_fits h₁, toBytes_of_fits h₂, PrefixRange.append_lt_append_iff_left,
    append_lt_append_iff _ _ (by simp), bigEndian_lt_bigEndian_iff h₁.power_lt h₂.power_lt,
    bigEndian_inj h₁.power_lt h₂.power_lt, map_complement_lt_iff (h₁.2.trans h₂.2.symm), lt_iff]

theorem toBytes_inj (h₁ : k₁.Fits) (h₂ : k₂.Fits) : k₁.toBytes = k₂.toBytes ↔ k₁ = k₂ := by
  refine ⟨fun h => ?_, fun h => h ▸ rfl⟩
  rcases lt_trichotomy k₁ k₂ with hlt | heq | hgt
  · exact absurd ((toBytes_lt_toBytes_iff h₁ h₂).2 hlt) (h ▸ lt_irrefl _)
  · exact heq
  · exact absurd ((toBytes_lt_toBytes_iff h₂ h₁).2 hgt) (h ▸ lt_irrefl _)

theorem parseValidatorPowerRankKey_toBytes (h : key.Fits) :
    KeyBytes.parseValidatorPowerRankKey key.toBytes = .ok key.operator := by
  have hlen : key.toBytes.length = 1 + 8 + addrLen := by
    rw [toBytes_of_fits h]
    simp [validatorsByPowerIndexKey, h.2]
    omega
  rw [KeyBytes.parseValidatorPowerRankKey, if_neg (not_not.2 hlen), toBytes_of_fits h]
  have hdrop : (validatorsByPowerIndexKey ++ (bigEndian 8 key.power ++ key.operator.map (~~~·))).drop
      (8 + 1) = key.operator.map (~~~·) := by
    rw [show 8 + 1 = validatorsByPowerIndexKey.length + (bigEndian 8 key.power).length by simp [validatorsByPowerIndexKey],
      ← List.drop_drop, List.drop_left, List.drop_left]
  rw [hdrop, map_complement_complement]
  rfl

end PowerKey

namespace Keeper

/-- A power in `[0, 2 ^ 63)` is read exactly. -/
theorem getValidatorPowerRank_of_range {v : Validator (List UInt8)}
    (htokens : 0 ≤ v.tokens ∧ v.tokens < 2 ^ 63) :
    getValidatorPowerRank v = .ok ⟨v.tokens.toNat, v.operatorAddress⟩ := by
  have hint : SdkInt.int64 v.tokens = .ok v.tokens := by
    rw [SdkInt.int64, if_pos ⟨by omega, htokens.2⟩]
  rw [getValidatorPowerRank, hint]
  change Except.ok (PowerKey.mk (v.tokens % 2 ^ 64).toNat v.operatorAddress) = _
  congr 2
  omega

end Keeper

/-- The byte key is the typed key, laid out. -/
theorem getValidatorPowerRank_eq_map_toBytes (v : Validator (List UInt8)) :
    KeyBytes.getValidatorPowerRank v = (Keeper.getValidatorPowerRank v).map PowerKey.toBytes := by
  unfold KeyBytes.getValidatorPowerRank Keeper.getValidatorPowerRank
  cases SdkInt.int64 v.tokens with
  | error e => rfl
  | ok p =>
    change Except.ok _ = Except.ok _
    rw [sliceCopy_of_length_eq (by simp)]
    rfl

/-- For operator addresses of `AddrLen` bytes and tokens in `[0, 2 ^ 63)`, power-rank keys compare
as `bytes.Compare` does exactly when the tokens increase, or tie and the addresses decrease; they are
equal only for equal tokens and addresses; and the parser reads the address back. -/
theorem powerRank_orders_validators (v₁ v₂ : Validator (List UInt8))
    (haddr₁ : v₁.operatorAddress.length = addrLen) (haddr₂ : v₂.operatorAddress.length = addrLen)
    (htokens₁ : 0 ≤ v₁.tokens ∧ v₁.tokens < 2 ^ 63) (htokens₂ : 0 ≤ v₂.tokens ∧ v₂.tokens < 2 ^ 63) :
    ∃ key₁ key₂, KeyBytes.getValidatorPowerRank v₁ = .ok key₁ ∧
      KeyBytes.getValidatorPowerRank v₂ = .ok key₂ ∧
      (key₁ < key₂ ↔
        v₁.tokens < v₂.tokens ∨ v₁.tokens = v₂.tokens ∧ v₂.operatorAddress < v₁.operatorAddress) ∧
      (key₁ = key₂ ↔ v₁.tokens = v₂.tokens ∧ v₁.operatorAddress = v₂.operatorAddress) ∧
      KeyBytes.parseValidatorPowerRankKey key₁ = .ok v₁.operatorAddress := by
  have hfits₁ : PowerKey.Fits ⟨v₁.tokens.toNat, v₁.operatorAddress⟩ := ⟨by simp; omega, haddr₁⟩
  have hfits₂ : PowerKey.Fits ⟨v₂.tokens.toNat, v₂.operatorAddress⟩ := ⟨by simp; omega, haddr₂⟩
  -- the powers are the tokens, read as natural numbers
  have hlt : v₁.tokens.toNat < v₂.tokens.toNat ↔ v₁.tokens < v₂.tokens := by omega
  have heq : v₁.tokens.toNat = v₂.tokens.toNat ↔ v₁.tokens = v₂.tokens := by omega
  have hkey₁ := getValidatorPowerRank_eq_map_toBytes v₁
  have hkey₂ := getValidatorPowerRank_eq_map_toBytes v₂
  rw [Keeper.getValidatorPowerRank_of_range htokens₁] at hkey₁
  rw [Keeper.getValidatorPowerRank_of_range htokens₂] at hkey₂
  refine ⟨_, _, hkey₁, hkey₂, ?_, ?_, PowerKey.parseValidatorPowerRankKey_toBytes hfits₁⟩
  · rw [PowerKey.toBytes_lt_toBytes_iff hfits₁ hfits₂, PowerKey.lt_iff]
    exact or_congr hlt (and_congr_left' heq)
  · rw [PowerKey.toBytes_inj hfits₁ hfits₂, PowerKey.mk.injEq, heq]

/-- Two validators with the same tokens: the key of the greater address comes first. -/
theorem powerRank_orders_validators_tie :
    ∃ key₁ key₂,
      KeyBytes.getValidatorPowerRank
          { Validator.new (List.replicate 20 2) [] ⟨"", "", "", ""⟩ with tokens := 5 } = .ok key₁ ∧
      KeyBytes.getValidatorPowerRank
          { Validator.new (List.replicate 20 1) [] ⟨"", "", "", ""⟩ with tokens := 5 } = .ok key₂ ∧
      key₁ < key₂ := by
  obtain ⟨key₁, key₂, h₁, h₂, hlt, -, -⟩ := powerRank_orders_validators
    { Validator.new (List.replicate 20 2) [] ⟨"", "", "", ""⟩ with tokens := 5 }
    { Validator.new (List.replicate 20 1) [] ⟨"", "", "", ""⟩ with tokens := 5 }
    rfl rfl (by decide) (by decide)
  exact ⟨key₁, key₂, h₁, h₂, hlt.2 (.inr ⟨rfl, by decide⟩)⟩

end CosmosSdk.Staking
