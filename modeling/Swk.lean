import Swk.HashMap
import Swk.Codec
import Swk.Elements
import Swk.ElementsCodec
import Swk.Update
import Swk.UpdateCodec
import Swk.Descriptor
import Swk.Cache
import Swk.StateExcept
import Swk.Ledger
import Swk.Edit
import Swk.Wollet
import Swk.Stored
import Swk.Same
import Swk.Persister
import Swk.Funds
import Swk.Scan
import Swk.Unspent
import Swk.Merge
import Swk.Replay
import Swk.Restore
import Swk.Crash
import Swk.ScanComplete
import Swk.Transactions
import Swk.PsetCreate
import Swk.TxBuilder
import Swk.Liquidex
import Swk.Assembly
import Swk.Finish
import Swk.Inputs
import Swk.Conservation
import Swk.Replace
import Swk.Blinding
import Swk.Json
import Swk.Covenant
import Swk.RevealGate
import Swk.Failure
import Swk.Adaptor
import Swk.BitcoinScript
import Swk.Htlc
import Swk.SwapData
import Swk.SwapLists
import Swk.SwapProgress
import Swk.Contract
import Swk.AppState
import Swk.AppHandler
import Swk.AppEntries
import Swk.UnsavedSigner
import Swk.Reload
import Swk.Restart
import Swk.Cpfp
import Swk.Refund
import Swk.Reissuance
import Swk.AddressReuse
import Swk.GapScan
import Swk.SilentChange
import Swk.Waterfalls
import Swk.WaterfallsIndex
import Swk.TxHistory
import Swk.PsetDetails
import Swk.Backed
import Swk.Review
import Swk.MachineInt
import Swk.StakingRewards
import Swk.Delegation
import Swk.BtcSelection
import Swk.NextStatus
import Swk.BlinderUpdate
import Swk.Proposal
import Swk.FeeAsset
import Swk.SeqdexSwap
import Swk.BlindLast
import Swk.LiquidexBalance
import Swk.BtcScan
import Swk.Precision
import Swk.Consensus
import Swk.Weight
import Swk.Coinjoin
import Swk.SwSigner
import Swk.Amp0
import Swk.RegistryCache
import Swk.PosConfig
import Swk.ScalarReduction
import Swk.Merkle
import Swk.KeyValue
import Swk.FileStore
import Swk.TxDetails
