import CosmosSdk.Auth.Account
import Mathlib.Data.Finmap

/-!
# The account store

The store of `AccountKeeper` (`x/auth/keeper.go`): each account under the key made of its own address
(`AddressStoreKey`), and the global account number.  `SetAccount` writes an account under the address
it holds, so the map never holds an account under another address; the store carries that as a field
(`Store.keyed`).  `NewAccountWithAddress` builds an account from `ProtoBaseAccount` (the prototype the
application registers) and gives it the next account number.
-/

namespace CosmosSdk.Auth

/-- The store of `AccountKeeper`. -/
structure Store where
  accounts : Finmap fun _ : AccAddress => Account
  keyed : ∀ addr acc, accounts.lookup addr = some acc → acc.getAddress = addr
  globalAccountNumber : Nat

namespace Store

/-- The store with no account. -/
def empty : Store where
  accounts := ∅
  keyed _ _ h := by simp at h
  globalAccountNumber := 0

/-- `GetAccount`. -/
def getAccount (st : Store) (addr : AccAddress) : Option Account := st.accounts.lookup addr

/-- `SetAccount`: the account goes under its own address. -/
def setAccount (st : Store) (acc : Account) : Store where
  accounts := st.accounts.insert acc.getAddress acc
  keyed := by
    intro addr acc' h
    by_cases haddr : addr = acc.getAddress
    · rw [haddr, Finmap.lookup_insert] at h
      cases h
      exact haddr.symm
    · rw [Finmap.lookup_insert_of_ne _ haddr] at h
      exact st.keyed addr acc' h
  globalAccountNumber := st.globalAccountNumber

/-- `GetNextAccountNumber`: the global account number, which moves on by one. -/
def getNextAccountNumber (st : Store) : Nat × Store :=
  (st.globalAccountNumber, { st with globalAccountNumber := st.globalAccountNumber + 1 })

/-- `NewAccountWithAddress`: `ProtoBaseAccount` with the address and the next account number. -/
def newAccountWithAddress (st : Store) (addr : AccAddress) : Except Panic (Account × Store) :=
  match protoBaseAccount.setAddress addr with
  | .error err => throw (.other err)
  | .ok acc =>
    let (accNumber, st) := st.getNextAccountNumber
    pure (.base { acc with accountNumber := accNumber }, st)

theorem getAccount_address {st : Store} {addr : AccAddress} {acc : Account}
    (h : st.getAccount addr = some acc) : acc.getAddress = addr :=
  st.keyed addr acc h

theorem getAccount_setAccount (st : Store) (acc : Account) (addr : AccAddress) :
    (st.setAccount acc).getAccount addr = if addr = acc.getAddress then some acc else st.getAccount addr := by
  by_cases haddr : addr = acc.getAddress
  · rw [if_pos haddr, haddr]
    exact Finmap.lookup_insert _
  · rw [if_neg haddr]
    exact Finmap.lookup_insert_of_ne _ haddr

@[simp] theorem setAccount_globalAccountNumber (st : Store) (acc : Account) :
    (st.setAccount acc).globalAccountNumber = st.globalAccountNumber := rfl

/-- A new account is `ProtoBaseAccount` at the address, with the next number; only the number moves. -/
theorem newAccountWithAddress_eq (st : Store) (addr : AccAddress) :
    st.newAccountWithAddress addr =
      .ok (.base ⟨addr, [], none, st.globalAccountNumber, 0⟩,
        { st with globalAccountNumber := st.globalAccountNumber + 1 }) := rfl

end Store

end CosmosSdk.Auth
