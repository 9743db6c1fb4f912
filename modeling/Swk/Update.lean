import Swk.Elements

/-!
# Updates

An `Update` is the delta a scan hands to the wallet, following `update.rs` and
`clients/mod.rs`: new transactions with their unblinded outputs, heights to set and to drop,
timestamps, scripts and the tip. `Update.merge` squashes two consecutive updates into one;
`Update.onlyTip` recognises the ones that move nothing but the tip.
-/

namespace Swk

/-- A couple of derivation indexes, for internal use (changes) and external use. -/
structure LastUnused where
  internal : UInt32
  external : UInt32
deriving DecidableEq

def LastUnused.default : LastUnused := ⟨0, 0⟩

/-- `Index<Chain>`. -/
def LastUnused.get (l : LastUnused) : Chain → UInt32
  | .external => l.external
  | .internal => l.internal

/-- Transactions downloaded and their unblinded outputs. -/
structure DownloadTxResult (T : Type := Transaction) where
  txs : List (Txid × T)
  unblinds : List (OutPoint × TxOutSecrets)
deriving DecidableEq

def DownloadTxResult.isEmpty (r : DownloadTxResult) : Bool :=
  r.txs.isEmpty && r.unblinds.isEmpty

/-- A script of the wallet with its chain, child number and blinding key. -/
abbrev ScriptEntry := Chain × ChildNumber × Script × Option PublicKey

/-- The delta of information that brings a wallet to the latest status. The wallet looks at the
inputs and outputs of transactions only (`Transaction`); a file has whole ones. -/
structure Update (T : Type := Transaction) where
  version : UInt8
  /-- The status of the wallet the update was generated from; 0 when it is not known. -/
  wolletStatus : UInt64
  newTxs : DownloadTxResult T
  txidHeightNew : List (Txid × Option Height)
  txidHeightDelete : List Txid
  timestamps : List (Height × Timestamp)
  scriptsWithBlindingPubkey : List ScriptEntry
  tip : BlockHeader
  /-- Filled in by utxo-only servers; otherwise the wallet computes it. -/
  unspent : List OutPoint
  lastUnused : LastUnused
deriving DecidableEq

namespace Update

def onlyTip (u : Update) : Bool :=
  u.newTxs.isEmpty && u.txidHeightNew.isEmpty && u.txidHeightDelete.isEmpty
    && u.scriptsWithBlindingPubkey.isEmpty && u.unspent.isEmpty

/-- The heights of a merged update: drop what the following update deletes, then let each of
its entries displace an earlier one for the same transaction. -/
def mergeHeights (new following : List (Txid × Option Height)) (delete : List Txid) :
    List (Txid × Option Height) :=
  following.foldl (fun acc e => acc.filter (fun a => a.1 ≠ e.1) ++ [e])
    (new.filter fun a => a.1 ∉ delete)

/-- `Update::merge`: squash `following`, the next update in sequence, into this one. -/
def merge (u following : Update) : Update where
  -- update version to latest
  version := following.version
  -- it's right to keep the status of the first update
  wolletStatus := u.wolletStatus
  newTxs :=
    { txs := u.newTxs.txs ++ following.newTxs.txs
      unblinds := u.newTxs.unblinds ++ following.newTxs.unblinds }
  txidHeightNew := mergeHeights u.txidHeightNew following.txidHeightNew following.txidHeightDelete
  txidHeightDelete := u.txidHeightDelete ++ following.txidHeightDelete
  timestamps := u.timestamps ++ following.timestamps
  scriptsWithBlindingPubkey := u.scriptsWithBlindingPubkey ++ following.scriptsWithBlindingPubkey
  -- the default header means "don't change the tip"
  tip := if following.tip ≠ defaultBlockheader then following.tip else u.tip
  unspent := following.unspent
  lastUnused :=
    { external := max u.lastUnused.external following.lastUnused.external
      internal := max u.lastUnused.internal following.lastUnused.internal }

end Update

end Swk
