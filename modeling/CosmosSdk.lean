import CosmosSdk.Lib.Cursor
import CosmosSdk.Lib.Overlay
import CosmosSdk.Lib.FinmapFold
import CosmosSdk.Lib.RingWindow
import CosmosSdk.Store.Types
import CosmosSdk.Lib.PrefixRange
import CosmosSdk.Store.Prefix
import CosmosSdk.Store.CacheKV.MergeIterator
import CosmosSdk.Store.CacheKV.Store
import CosmosSdk.Store.CacheKV.Refinement
import CosmosSdk.Store.CacheMulti
import CosmosSdk.Store.Rootmulti.Proof
import CosmosSdk.Types.Handler
import CosmosSdk.Baseapp.RunTx
import CosmosSdk.Types.Decimal
import CosmosSdk.Types.Rounding
import CosmosSdk.Lib.GoText
import CosmosSdk.Types.Uint
import CosmosSdk.Types.DecString
import CosmosSdk.Types.CoinText
import CosmosSdk.Mint.Minter
import CosmosSdk.Distribution.Allocation
import CosmosSdk.Staking.Types
import CosmosSdk.Lib.StateExcept
import CosmosSdk.Lib.FinmapSum
import CosmosSdk.Staking.Keeper
import CosmosSdk.Staking.Delegation
import CosmosSdk.Staking.Slash
import CosmosSdk.Staking.ValStateChange
import CosmosSdk.Staking.Handler
import CosmosSdk.Staking.Genesis
import CosmosSdk.Staking.Frame
import CosmosSdk.Staking.Shares.Ledger
import CosmosSdk.Staking.Shares.Methods
import CosmosSdk.Staking.Shares.Delegation
import CosmosSdk.Staking.Shares.EndBlock
import CosmosSdk.Staking.Shares.Slash
import CosmosSdk.Staking.Shares.Step
import CosmosSdk.Staking.Shares.Genesis
import CosmosSdk.Staking.Tokens.Entries
import CosmosSdk.Staking.Tokens.Run
import CosmosSdk.Lib.ByteKey
import CosmosSdk.Staking.PowerRank
import CosmosSdk.Lib.InPlaceFilter
import CosmosSdk.Staking.Completion
import CosmosSdk.Lib.Transition
import CosmosSdk.Store.Iavl.Iterator
import CosmosSdk.Slashing.Keeper
import CosmosSdk.Slashing.Window
import CosmosSdk.Slashing.Tombstone
import CosmosSdk.Gov.Tally
import CosmosSdk.Types.Coins
import CosmosSdk.Types.DecCoins
import CosmosSdk.Auth.Account
import CosmosSdk.Auth.Keeper
import CosmosSdk.Bank.Keeper
import CosmosSdk.Bank.Handler
import CosmosSdk.Bank.Transfer
import CosmosSdk.Ibc.Handler
import CosmosSdk.Ibc.Egress
import CosmosSdk.Gov.Keeper
import CosmosSdk.Gov.Handler
import CosmosSdk.Gov.Invariant
import CosmosSdk.Gov.EndBlock
import CosmosSdk.Gov.Lifecycle
import CosmosSdk.Gov.Genesis
import CosmosSdk.Gov.Deposits
import CosmosSdk.Gov.Backing
