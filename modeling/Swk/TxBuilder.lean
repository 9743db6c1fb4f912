import Swk.PsetCreate

/-!
# The transaction builder

`TxBuilder::finish_inner`, following `tx_builder.rs`. Inputs and outputs are added asset by asset:
recipients, then external utxos, then selected or automatically drawn coins, then change. The
policy asset comes last and pays the fee, unless the fee is in another asset; then that asset's
change waits until the fee is known. With everything in place the transaction is weighed, and the
amounts of change and fee are set to match.

Amounts are `u64`s and wrap. LiquiDEX proposals are made and taken in their own ways.
-/

namespace Swk

/-! ## Configuration -/

/-- An opening as a LiquiDEX proposal states it. -/
structure LiquidexTxOutSecrets where
  asset : AssetId
  assetBlinder : Tweak
  satoshi : UInt64

structure LiquidexProposal where
  tx : Except Error Transaction
  signed : Bool
  inputs : List LiquidexTxOutSecrets
  outputs : List LiquidexTxOutSecrets
  scalars : List Tweak

structure TxBuilder where
  policyAsset : AssetId
  recipients : List Recipient
  feeRate : FeeRate
  ctDiscount : Bool
  issuanceRequest : IssuanceRequest
  drainTo : Option Address
  externalUtxos : List ExternalUtxo
  selectedUtxos : Option (List OutPoint)
  addInputRangeproofs : Bool
  feeAsset : Option (AssetId × UInt64)
  enableRbf : Bool
  avoidUtxos : List OutPoint
  isLiquidexMake : Bool
  liquidexProposals : List LiquidexProposal

/-- `TxBuilder::new`. The default fee rate is `100.0`. -/
def TxBuilder.new (policyAsset : AssetId) : TxBuilder where
  policyAsset := policyAsset
  recipients := []
  feeRate := 0x42c80000
  ctDiscount := true
  issuanceRequest := .none
  drainTo := none
  externalUtxos := []
  selectedUtxos := none
  addInputRangeproofs := true
  feeAsset := none
  enableRbf := true
  avoidUtxos := []
  isLiquidexMake := false
  liquidexProposals := []

/-! ## Adding inputs and outputs -/

/-- Add the outputs for some recipients; the sum of what they get. -/
def addRecipients (l : List Recipient) : BuildM UInt64 :=
  l.foldlM (fun satoshiOut addressee => do
    addOutput addressee
    pure (satoshiOut + addressee.satoshi)) 0

def addChange (x : Builder) (w : Wollet) (satoshi : UInt64) (asset : AssetId) : BuildM Unit := do
  let addressee ← w.addresseeChange x satoshi asset
  addOutput addressee

namespace TxBuilder

/-- Add all external utxos of an asset; the sum of what they bring. -/
def addExternals (x : Builder) (t : TxBuilder) (asset : AssetId) : BuildM UInt64 :=
  (t.externalUtxos.filter fun u => u.unblinded.asset = asset).foldlM (fun satoshiIn utxo => do
    let _ ← addExternalInput x t.addInputRangeproofs utxo
    pure (satoshiIn + utxo.unblinded.value)) 0

def addCoins (x : Builder) (w : Wollet) (t : TxBuilder) (l : List WalletTxOut)
    (satoshiIn : UInt64) : BuildM UInt64 :=
  l.foldlM (fun satoshiIn utxo => do
    let _ ← w.addInput x t.addInputRangeproofs utxo
    pure (satoshiIn + utxo.unblinded.value)) satoshiIn

/-- Add coins until they cover the amount to send. -/
def addCoinsUntil (x : Builder) (w : Wollet) (t : TxBuilder) (wantAll : Bool)
    (satoshiOut : UInt64) : List WalletTxOut → UInt64 → BuildM UInt64
  | [], satoshiIn => pure satoshiIn
  | utxo :: rest, satoshiIn => do
      let _ ← w.addInput x t.addInputRangeproofs utxo
      let satoshiIn := satoshiIn + utxo.unblinded.value
      if !wantAll && satoshiIn ≥ satoshiOut then pure satoshiIn
      else t.addCoinsUntil x w wantAll satoshiOut rest satoshiIn

end TxBuilder

def coinsOf (x : Builder) (utxos : HashMap OutPoint WalletTxOut) (asset : AssetId) :
    List WalletTxOut :=
  (x.order.coins utxos.values).filter fun u => u.unblinded.asset = asset

namespace TxBuilder

variable (t : TxBuilder) (x : Builder) (w : Wollet) (sums : UInt64 × UInt64)

/-- The candidates for automatic coin selection: not the external utxos, which are spent anyway,
and not the avoided ones. -/
def candidates (utxos : HashMap OutPoint WalletTxOut) : HashMap OutPoint WalletTxOut :=
  t.avoidUtxos.foldl (fun m o => m.erase o)
    (t.externalUtxos.foldl (fun m u => m.erase u.outpoint) utxos)

def selectedCoins (utxos : HashMap OutPoint WalletTxOut) : Except Error (List WalletTxOut) :=
  (t.selectedUtxos.getD []).mapM fun coin =>
    match utxos.lookup coin with
    | some utxo => .ok utxo
    | none => .error (.missingWalletUtxo coin)

/-- The fee asset and its rate, if it is not the policy asset. -/
def feeInAsset : Option (AssetId × UInt64) :=
  t.feeAsset.filter fun e => e.1 ≠ t.policyAsset

/-- The assets other than the policy asset that belong to the transaction. -/
def assets (x : Builder) (t : TxBuilder) (selected : List WalletTxOut) : List AssetId :=
  let used := t.recipients.map (·.asset) ++ t.externalUtxos.map (·.unblinded.asset) ++
    selected.map (·.unblinded.asset)
  x.order.assets ((used.filter fun a => a ≠ t.policyAsset) ++ t.feeInAsset.toList.map (·.1)).dedup

/-- Whether the fee is paid in an asset other than the policy asset, and this is it. -/
def isFeeAsset (asset : AssetId) : Bool := t.feeInAsset.any fun e => e.1 = asset

/-- Add coins of an asset to what the external utxos bring: all that were selected, or as many as
it takes. All of the fee asset is added, so that there is room for the fee. -/
def drawCoins (t : TxBuilder) (utxos : HashMap OutPoint WalletTxOut) (selected : List WalletTxOut)
    (asset : AssetId) (satoshiOut satoshiIn : UInt64) : BuildM UInt64 :=
  if t.selectedUtxos.isSome then
    t.addCoins x w (selected.filter fun u => u.unblinded.asset = asset) satoshiIn
  else if satoshiIn < satoshiOut || t.isFeeAsset asset then
    t.addCoinsUntil x w (t.isFeeAsset asset) satoshiOut (coinsOf x utxos asset) satoshiIn
  else pure satoshiIn

/-- Recipients, external utxos and coins of an asset: what comes in and what goes out. -/
def addAsset (t : TxBuilder) (utxos : HashMap OutPoint WalletTxOut) (selected : List WalletTxOut)
    (asset : AssetId) : BuildM (UInt64 × UInt64) := do
  let satoshiOut ← addRecipients (t.recipients.filter fun a => a.asset = asset)
  let satoshiIn ← t.addExternals x asset
  let satoshiIn ← t.drawCoins x w utxos selected asset satoshiOut satoshiIn
  pure (satoshiIn, satoshiOut)

/-- The change of an asset, which must cover what goes out. -/
def addAssetChange (asset : AssetId) : BuildM Unit := do
  runIf (sums.1 > sums.2) (addChange x w (sums.1 - sums.2) asset)
  ensureElse (!(sums.1 < sums.2 : Bool)) (.insufficientFunds (sums.2 - sums.1) asset false)

/-- The loop over the assets: what comes in and what goes out of the fee asset, whose change is
left for later. -/
def addAssets (x : Builder) (w : Wollet) (t : TxBuilder) (utxos : HashMap OutPoint WalletTxOut)
    (selected : List WalletTxOut) : List AssetId → UInt64 × UInt64 → BuildM (UInt64 × UInt64)
  | [], fee => pure fee
  | asset :: rest, fee => do
      let sums ← t.addAsset x w utxos selected asset
      if t.isFeeAsset asset then t.addAssets x w utxos selected rest sums
      else do
        addAssetChange x w sums asset
        t.addAssets x w utxos selected rest fee

/-- The coins of the policy asset that are added: all that were selected, or all there are. -/
def policyCoins (t : TxBuilder) (utxos : HashMap OutPoint WalletTxOut)
    (selected : List WalletTxOut) : List WalletTxOut :=
  if t.selectedUtxos.isSome then selected.filter fun u => u.unblinded.asset = t.policyAsset
  else coinsOf x utxos t.policyAsset

def addPolicyAsset (t : TxBuilder) (utxos : HashMap OutPoint WalletTxOut)
    (selected : List WalletTxOut) : BuildM (UInt64 × UInt64) := do
  let satoshiOut ← addRecipients (t.recipients.filter fun a => a.asset = t.policyAsset)
  let satoshiIn ← t.addExternals x t.policyAsset
  let satoshiIn ← t.addCoins x w (t.policyCoins x utxos selected) satoshiIn
  pure (satoshiIn, satoshiOut)

/-! ## Issuance -/

/-- The addressee of issued units: the given address or one of the wallet. -/
def issuanceAddressee (satoshi : UInt64) (asset : AssetId)
    (address : Option Address) : BuildM Recipient :=
  match address with
  | some address => pure (Recipient.fromAddress satoshi address asset)
  | none => w.addresseeExternal x satoshi asset

def addIssued (satoshi : UInt64) (asset : AssetId) (address : Option Address) : BuildM Unit := do
  let addressee ← issuanceAddressee x w satoshi asset address
  addOutput addressee

/-- The issuance a reissuance refers to: of the given transaction or of the wallet. -/
def issuanceOf (asset : AssetId) (issuanceTx : Option Transaction) : Except Error IssuanceDetails :=
  match issuanceTx with
  | some tx =>
    match (extractIssuances x.env x.hash tx).find? fun i => i.asset = asset with
    | some details => .ok details
    | none => .error .missingIssuance
  | none => w.issuance x.env x.hash asset

/-- The input that carries the token, which is added unless there is one already; with the asset
blinding factor of the token. -/
def tokenInput (t : TxBuilder) (utxos : HashMap OutPoint WalletTxOut)
    (token : AssetId) : BuildM (Nat × Tweak) := do
  let b ← get
  match (x.order.secrets b.inpTxoutSec.toPairs).find? fun e => e.2.asset = token with
  | some e => pure (e.1, e.2.assetBf)
  | none =>
    match coinsOf x utxos token with
    | [] => throw (.insufficientFunds 1 token true)
    | utxo :: _ => do
        let idx ← w.addInput x t.addInputRangeproofs utxo
        addChange x w utxo.unblinded.value token
        pure (idx, utxo.unblinded.assetBf)

def addIssuance (t : TxBuilder) (utxos : HashMap OutPoint WalletTxOut) : BuildM Unit :=
  match t.issuanceRequest with
  | .none => pure ()
  | .issuance satoshiAsset addressAsset satoshiToken addressToken contract => do
      let ids ← setIssuance x 0 satoshiAsset satoshiToken contract
      runIf (satoshiAsset > 0) (addIssued x w satoshiAsset ids.1 addressAsset)
      runIf (satoshiToken > 0) (addIssued x w satoshiToken ids.2 addressToken)
  | .reissuance asset satoshiAsset addressAsset issuanceTx => do
      let details ← liftExcept (issuanceOf x w asset issuanceTx)
      let r ← t.tokenInput x w utxos details.token
      let _ ← setReissuance r.1 satoshiAsset r.2 details.entropy
      addIssued x w satoshiAsset asset addressAsset

/-! ## Change and fee -/

def policyAddressee (t : TxBuilder) (satoshi : UInt64) : BuildM Recipient :=
  match t.drainTo with
  | some address => pure (Recipient.fromAddress satoshi address x.env.policyAsset)
  | none => w.addresseeChange x satoshi x.env.policyAsset

def nextOutput : BuildM Nat := do
  let b ← get
  pure b.pset.outputs.length

def tempFee : UInt64 := 1

/-- Add the change of the policy asset, before the fee is known; the index of the output. -/
def addPolicyChange (t : TxBuilder) (sums : UInt64 × UInt64) : BuildM (Option Nat) := do
  let policyFee := if t.feeInAsset.isSome then 0 else tempFee
  ensureElse (!(decide (sums.1 < sums.2 + policyFee) ||
      (t.feeInAsset.isNone && decide (sums.1 = sums.2 + policyFee))))
    (.insufficientFunds
      (if sums.2 + policyFee + 1 < sums.1 then 0 else sums.2 + policyFee + 1 - sums.1)
      x.env.policyAsset false)
  let policyChange := sums.1 - sums.2 - policyFee
  if policyChange > 0 || t.feeInAsset.isNone then do
    let addressee ← t.policyAddressee x w policyChange
    let idx ← nextOutput
    addOutput addressee
    pure (some idx)
  else pure none

/-- Add the change of the fee asset, before the fee is known; the index of the output. -/
def addFeeAssetChange (t : TxBuilder) (fee : UInt64 × UInt64) : BuildM (Option Nat) :=
  match t.feeInAsset with
  | none => pure none
  | some (asset, _) => do
      ensureElse (decide (fee.2 ≤ fee.1)) (.insufficientFunds (fee.2 - fee.1) asset false)
      let change := fee.1 - fee.2
      if change > 0 then do
        let idx ← nextOutput
        addChange x w change asset
        pure (some idx)
      else pure none

/-- Weigh the transaction, blinded if it has a confidential output. -/
def weight (t : TxBuilder) : BuildM Nat := do
  let b ← get
  let doBlind := b.pset.outputs.any (·.blindingKey.isSome)
  let txWeight ← liftExcept (x.weigh b.pset b.inpTxoutSec doBlind t.ctDiscount)
  pure (b.inpWeight + txWeight)

def setAmount (idx : Nat) (amount : UInt64) : BuildM Unit :=
  modify fun b =>
    { b with
      pset :=
        { b.pset with
          outputs := b.pset.outputs.modify idx fun o => { o with amount := some amount } } }

def removeOutput (idx : Nat) : BuildM Unit :=
  modify fun b => { b with pset := { b.pset with outputs := b.pset.outputs.eraseIdx idx } }

def rateScale : Nat := 100000000

/-- An amount of the policy asset in another asset, rounded up. -/
def convertValue (amount rate : Nat) : Nat := (amount * rateScale + rate - 1) / rate

/-- Set the amount of an output that may be missing. -/
def setAmountAt (idx : Option Nat) (amount : UInt64) : BuildM Unit :=
  match idx with
  | some i => setAmount i amount
  | none => pure ()

/-- The change of the fee asset and the fee. A change that would be dust is folded into the fee. -/
def settleChange (change feeAmount : UInt64) (dust : Nat) (changeIdx : Option Nat) (feeIdx : Nat) :
    BuildM Unit :=
  match changeIdx with
  | none => setAmount feeIdx feeAmount
  | some i =>
    if change.toNat > dust then do
      setAmount i change
      setAmount feeIdx feeAmount
    else do
      setAmount feeIdx (feeAmount + change)
      removeOutput i

/-- Settle a fee in another asset: it comes out of that asset's change. -/
def settleFeeAsset (fee : UInt64 × UInt64) (asset : AssetId) (rate policyFee : UInt64)
    (policyIdx changeIdx : Option Nat) (feeIdx : Nat) : BuildM Unit := do
  let q := convertValue policyFee.toNat rate.toNat
  ensureElse (decide (q < 2 ^ 64 - 1))
    (.generic ("fee in asset " ++ displayHash asset ++ " overflows u64 (exchange rate too small)"))
  let feeAmount := UInt64.ofNat q + 1
  ensureElse (!(fee.1 < fee.2 + feeAmount : Bool))
    (.insufficientFunds (fee.2 + feeAmount - fee.1) asset false)
  setAmountAt policyIdx (sums.1 - sums.2)
  settleChange (fee.1 - fee.2 - feeAmount) feeAmount (convertValue 294 rate.toNat) changeIdx feeIdx
  let b ← get
  ensureElse (b.pset.outputs.any fun o => !o.scriptPubkey.isEmpty)
    (.generic ("change too small to rescue at this fee rate — it would all go to fee; " ++
      "use Bump fee (RBF) instead"))

def settlePolicyFee (fee : UInt64) (policyIdx : Option Nat) (feeIdx : Nat) : BuildM Unit := do
  ensureElse (!(sums.1 ≤ sums.2 + fee : Bool))
    (.insufficientFunds (sums.2 + fee + 1 - sums.1) x.env.policyAsset false)
  setAmountAt policyIdx (sums.1 - sums.2 - fee)
  setAmount feeIdx fee

/-- Add change and a temporary fee, weigh, and set the amounts. -/
def addFee (t : TxBuilder) (sums fee : UInt64 × UInt64) : BuildM Unit := do
  let policyIdx ← t.addPolicyChange x w sums
  let changeIdx ← t.addFeeAssetChange x w fee
  let feeIdx ← nextOutput
  pushOutput (.newExplicit [] tempFee ((t.feeInAsset.map (·.1)).getD x.env.policyAsset))
  let weight ← t.weight x
  let policyFee := x.calculateFee weight t.feeRate
  match t.feeInAsset with
  | some (asset, rate) =>
    settleFeeAsset sums fee asset rate policyFee policyIdx changeIdx feeIdx
  | none => settlePolicyFee x sums policyFee policyIdx feeIdx

/-! ## Finishing -/

def enableRbfNoLocktime : UInt32 := 0xfffffffd

/-- Blind the transaction if it has a confidential output, with elements 0.26, add details and
signal RBF. -/
def complete (t : TxBuilder) : BuildM Pset := do
  let b ← get
  ensureElse (x.reads26 b.pset) (.expectFailed "from elements25")
  let doBlind := b.pset.outputs.any (·.blindingKey.isSome)
  runIf doBlind (liftExcept (x.blindLast b.pset b.inpTxoutSec))
  let pset :=
    { b.pset with
      inputs := b.pset.inputs.map fun i =>
        { i with nonWitnessUtxo := i.nonWitnessUtxo.map (·.eraseProofs) } }
  liftExcept (x.addDetails pset)
  pure (if t.enableRbf then
      { pset with
        inputs := pset.inputs.map fun i => { i with sequence := some enableRbfNoLocktime } }
    else pset)

def start : Build where
  pset := .new
  inpTxoutSec := ∅
  inpWeight := 0
  lastUnusedInternal := w.cache.lastUnusedInternal
  lastUnusedExternal := w.cache.lastUnusedExternal

/-- The rate of the fee asset is not zero: the node would not accept it. -/
def checkRate : Except Error Unit :=
  match t.feeInAsset with
  | some (asset, rate) =>
    if rate = 0 then
      .error (.generic ("fee asset " ++ displayHash asset ++
        " has a zero exchange rate (not accepted for fees)"))
    else .ok ()
  | none => .ok ()

/-- `finish_inner`, apart from LiquiDEX. -/
def finishPlain (t : TxBuilder) : BuildM Pset := do
  let all ← liftExcept w.utxosMap
  let utxos := t.candidates all
  let selected ← liftExcept (t.selectedCoins utxos)
  liftExcept t.checkRate
  let fee ← t.addAssets x w utxos selected (t.assets x selected) (0, 0)
  let sums ← t.addPolicyAsset x w utxos selected
  t.addIssuance x w utxos
  t.addFee x w sums fee
  t.complete x

end TxBuilder

end Swk
