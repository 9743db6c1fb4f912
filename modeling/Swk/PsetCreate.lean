import Swk.Transactions

/-!
# Creating PSETs

The parts a transaction is put together from, following `pset_create.rs`: inputs from outputs of
the wallet or of others, outputs for recipients, change and receiving addresses, issuances. A
`Build` is what the builder has at hand while it works: the PSET, the openings of its inputs, the
weight of their witnesses and the next unused indexes.

Blinding, weighing and the fee rate arithmetic are third-party code, gathered in `Builder`. Of a
PSET the fields the wallet reads or sets are kept; commitments and proofs are not.
-/

namespace Swk

/-! ## PSETs -/

structure PsetInput where
  /-- `previous_txid` and `previous_output_index`. -/
  previousOutput : OutPoint
  asset : Option AssetId
  amount : Option UInt64
  witnessUtxo : Option TxOut
  nonWitnessUtxo : Option Transaction
  inUtxoRangeproof : Option (List UInt8)
  issuanceValueAmount : Option UInt64
  issuanceInflationKeys : Option UInt64
  issuanceBlindingNonce : Option Tweak
  issuanceAssetEntropy : Option (BitVec 256)
  blindedIssuance : Option UInt8
  sequence : Option UInt32
  sighashType : Option UInt32
  abf : Option Tweak
deriving DecidableEq

def PsetInput.fromPrevout (outpoint : OutPoint) : PsetInput where
  previousOutput := outpoint
  asset := none
  amount := none
  witnessUtxo := none
  nonWitnessUtxo := none
  inUtxoRangeproof := none
  issuanceValueAmount := none
  issuanceInflationKeys := none
  issuanceBlindingNonce := none
  issuanceAssetEntropy := none
  blindedIssuance := none
  sequence := none
  sighashType := none
  abf := none

/-- `Input::issuance_ids`; the issuances here are explicit. -/
def PsetInput.issuanceIds (h : IssuanceHash) (i : PsetInput) : AssetId × AssetId :=
  h.ids i.previousOutput (i.issuanceBlindingNonce.getD .zero) (i.issuanceAssetEntropy.getD 0) false

structure PsetOutput where
  scriptPubkey : Script
  amount : Option UInt64
  asset : Option AssetId
  blindingKey : Option PublicKey
  blinderIndex : Option Nat
  abf : Option Tweak
deriving DecidableEq

/-- `Output::new_explicit`, without a blinding key. -/
def PsetOutput.newExplicit (script : Script) (value : UInt64) (asset : AssetId) : PsetOutput where
  scriptPubkey := script
  amount := some value
  asset := some asset
  blindingKey := none
  blinderIndex := none
  abf := none

structure Pset where
  inputs : List PsetInput
  outputs : List PsetOutput
  scalars : List Tweak
deriving DecidableEq

/-- `PartiallySignedTransaction::new_v2`. -/
def Pset.new : Pset := ⟨[], [], []⟩

/-! ## What the builder is given -/

structure Recipient where
  satoshi : UInt64
  scriptPubkey : Script
  blindingPubkey : Option PublicKey
  asset : AssetId
deriving DecidableEq

def Recipient.fromAddress (satoshi : UInt64) (address : Address) (asset : AssetId) : Recipient :=
  ⟨satoshi, address.scriptPubkey, address.blindingPubkey, asset⟩

/-- An output to spend that is not drawn from the wallet's unspent outputs. -/
structure ExternalUtxo where
  outpoint : OutPoint
  txout : TxOut
  tx : Option Transaction
  unblinded : TxOutSecrets
  maxWeightToSatisfy : Nat
deriving DecidableEq

/-- A contract, as far as an issuance looks at it: its hash, or why it has none. -/
structure Contract where
  contractHash : Except Error (BitVec 256)

inductive IssuanceRequest
  | none
  | issuance (satoshiAsset : UInt64) (addressAsset : Option Address) (satoshiToken : UInt64)
      (addressToken : Option Address) (contract : Option Contract)
  | reissuance (asset : AssetId) (satoshiAsset : UInt64) (addressAsset : Option Address)
      (issuanceTx : Option Transaction)

/-- The bits of an `f32`: a fee rate in satoshi per 1000 virtual bytes. -/
abbrev FeeRate := BitVec 32

/-- The order hash maps and sets are iterated in: any, but the same one as long as the content
does not change. -/
structure HashOrder where
  assets : List AssetId → List AssetId
  assets_perm : ∀ l, (assets l).Perm l
  coins : List WalletTxOut → List WalletTxOut
  coins_perm : ∀ l, (coins l).Perm l
  secrets : List (Nat × TxOutSecrets) → List (Nat × TxOutSecrets)
  secrets_perm : ∀ l, (secrets l).Perm l

/-- The openings of the inputs of a PSET, by index. -/
abbrev InpTxoutSec := HashMap Nat TxOutSecrets

structure Builder where
  env : Env
  /-- `max_weight_to_satisfy` of the wallet's descriptor. -/
  maxWeightToSatisfy : Nat
  hash : IssuanceHash
  order : HashOrder
  amp0Address : UInt32 → Except Error Address
  /-- The proofs that an input's asset and amount are those of the spent output. -/
  blindProofs : TxOut → TxOutSecrets → Except Error Unit
  /-- The weight of the transaction, after `blind_last` if the flag says so, with the discount for
  confidential transactions if the second flag says so. -/
  weigh : Pset → InpTxoutSec → Bool → Bool → Except Error Nat
  calculateFee : Nat → FeeRate → UInt64
  /-- Whether elements 0.26, whose `blind_last` is called in the end, reads the text of a PSET.
  What it writes reads back. -/
  reads26 : Pset → Bool
  /-- `blind_last`: it fills in commitments and proofs, which are not modelled. -/
  blindLast : Pset → InpTxoutSec → Except Error Unit
  /-- `add_details`: it fills in key origins, which are not modelled. -/
  addDetails : Pset → Except Error Unit
  /-- The blinding of a LiquiDEX maker's output, with the factors drawn for it. -/
  blindMaker : TxOutSecrets → Recipient → Except Error (Tweak × Tweak)
  surjectionProof : AssetId → Tweak → List TxOutSecrets → Except Error Unit

/-! ## Building -/

structure Build where
  pset : Pset
  inpTxoutSec : InpTxoutSec
  inpWeight : Nat
  lastUnusedInternal : UInt32
  lastUnusedExternal : UInt32

/-- A computation on a transaction that is being built. -/
abbrev BuildM := EStateM Error Build

/-- `SECP256K1_SURJECTIONPROOF_MAX_N_INPUTS`. -/
def surjectionproofMaxNInputs : Nat := 256

/-- Whether an output is fully confidential, so that its blinding can be proved. -/
def TxOut.isCommitted (o : TxOut) : Bool :=
  match o.value, o.asset with
  | .confidential _, .confidential _ => true
  | _, _ => false

/-- A transaction without the range proof of output `vout`. -/
def Transaction.takeRangeproof (tx : Transaction) (vout : Nat) : Transaction :=
  { tx with output := tx.output.modify vout fun o => { o with rangeproof := none } }

/-- A transaction without the proofs of its outputs. -/
def Transaction.eraseProofs (tx : Transaction) : Transaction :=
  { tx with output := tx.output.map fun o => { o with rangeproof := none } }

def inputFor (outpoint : OutPoint) (txout : TxOut) (tx : Option Transaction)
    (unblinded : TxOutSecrets) (addInputRangeproofs : Bool) : PsetInput :=
  { PsetInput.fromPrevout outpoint with
    asset := some unblinded.asset
    amount := some unblinded.value
    witnessUtxo := some { txout with rangeproof := none }
    nonWitnessUtxo := tx.map (·.takeRangeproof outpoint.vout)
    inUtxoRangeproof := if addInputRangeproofs then txout.rangeproof else none }

/-- The blind proofs of an input; an explicit one has none. -/
def blindInput (x : Builder) (txout : TxOut) (unblinded : TxOutSecrets)
    (allowExplicitInput : Bool) : Except Error Unit :=
  if txout.isCommitted then x.blindProofs txout unblinded
  else if allowExplicitInput then .ok ()
  else .error .notConfidentialInput

def addInputInner (x : Builder) (outpoint : OutPoint) (txout : TxOut) (tx : Option Transaction)
    (unblinded : TxOutSecrets) (maxWeightToSatisfy : Nat)
    (allowExplicitInput addInputRangeproofs : Bool) : BuildM Nat := do
  let b ← get
  ensureElse (decide (b.pset.inputs.length < surjectionproofMaxNInputs))
    (.tooManyInputs b.pset.inputs.length)
  liftExcept (blindInput x txout unblinded allowExplicitInput)
  ensureElse (tx.all fun tx => decide (outpoint.vout < tx.output.length))
    (.expectFailed "got txout above")
  let idx := b.pset.inputs.length
  set
    { b with
      pset :=
        { b.pset with
          inputs := b.pset.inputs ++ [inputFor outpoint txout tx unblinded addInputRangeproofs] }
      inpTxoutSec := b.inpTxoutSec.insert idx unblinded
      inpWeight := b.inpWeight + maxWeightToSatisfy }
  pure idx

/-- `add_external_input`: external inputs can be explicit. -/
def addExternalInput (x : Builder) (addInputRangeproofs : Bool) (utxo : ExternalUtxo) :
    BuildM Nat :=
  addInputInner x utxo.outpoint utxo.txout utxo.tx utxo.unblinded utxo.maxWeightToSatisfy true
    addInputRangeproofs

namespace Wollet

def getTx (w : Wollet) (txid : Txid) : Except Error Transaction :=
  match w.disk.txs.lookup txid with
  | some tx => .ok tx
  | none => .error .missingTransaction

def getTxout (w : Wollet) (outpoint : OutPoint) : Except Error TxOut := do
  let tx ← w.getTx outpoint.txid
  match tx.output[outpoint.vout]? with
  | some out => pure out
  | none => throw .missingVout

/-- The transaction that pre-segwit inputs carry along. -/
def nonWitnessTx (env : Env) (w : Wollet) (txid : Txid) : Except Error (Option Transaction) :=
  if env.descriptor.isSegwit then .ok none else (w.getTx txid).map some

/-- `Wollet::add_input`. Wallet inputs may be explicit. -/
def addInput (x : Builder) (w : Wollet) (addInputRangeproofs : Bool) (utxo : WalletTxOut) :
    BuildM Nat := do
  let tx ← liftExcept (w.nonWitnessTx x.env utxo.outpoint.txid)
  let txout ← liftExcept (w.getTxout utxo.outpoint)
  addInputInner x utxo.outpoint txout tx utxo.unblinded x.maxWeightToSatisfy true
    addInputRangeproofs

end Wollet

def Recipient.output (r : Recipient) : PsetOutput where
  scriptPubkey := r.scriptPubkey
  amount := some r.satoshi
  asset := some r.asset
  blindingKey := r.blindingPubkey
  blinderIndex := some 0
  abf := none

/-- `PartiallySignedTransaction::add_output`. -/
def pushOutput (o : PsetOutput) : BuildM Unit :=
  modify fun b => { b with pset := { b.pset with outputs := b.pset.outputs ++ [o] } }

def addOutput (addressee : Recipient) : BuildM Unit := pushOutput addressee.output

/-! ## Addresses of the wallet -/

def WolletDescriptor.innerAddress (secp : Secp) (d : WolletDescriptor) (index : UInt32)
    (extInt : Chain) : Except Error Address :=
  if d.isAmp0 then .error .amp0AddressError
  else
    match d.inner with
    | .spks l =>
      match l[index.toNat]? with
      | none => .error .indexOutOfRange
      | some spk =>
        match Address.fromScript spk.scriptPubkey (spk.blindingKey.map secp.publicKey) with
        | some address => .ok address
        | none => .error .unsupportedWithoutDescriptor
    | .desc _ => do
        let single ← d.innerDescriptorIfAvailable extInt
        let r ← single.derive index
        pure ⟨r.1, some r.2⟩

namespace Wollet

/-- `Wollet::inner_address`, with the index it is at. -/
def innerAddress (env : Env) (w : Wollet) (chain : Chain) (index : Option UInt32) :
    Except Error (Address × UInt32) := do
  let hasDescriptor := env.descriptor.spkCount.isNone
  if hasDescriptor && !env.descriptor.hasWildcard && index.isSome then throw .indexWithoutWildcard
  else if !hasDescriptor && index.isNone then throw .unsupportedWithoutDescriptor
  else
    let index := index.getD (w.lastUnused.get chain)
    let address ← env.descriptor.innerAddress env.secp index chain
    pure (address, index)

def hasConfidentialUtxo (w : Wollet) : Bool :=
  w.cache.unspent.keys.any fun o =>
    match w.cache.unblinded.lookup o with
    | some secrets => !isExplicit secrets
    | none => false

def addresseeIndex (env : Env) (lastUnused : UInt32) : Option UInt32 :=
  if env.descriptor.hasWildcard then some lastUnused
  -- a wallet without descriptor always uses its first script
  else if env.descriptor.spkCount.isSome then some 0
  else none

/-- `addressee_inner`, on the next unused index; the new one is returned. Change is explicit
unless the wallet might spend a confidential input. -/
def addresseeInner (x : Builder) (w : Wollet) (satoshi : UInt64) (asset : AssetId)
    (lastUnused : UInt32) (isChange : Bool) : Except Error (Recipient × UInt32) :=
  if x.env.descriptor.isAmp0 then do
    -- AMP0 servers monitor the first addresses only
    let lastUnused := max 1 (min lastUnused 20)
    let address ← x.amp0Address lastUnused
    pure (Recipient.fromAddress satoshi address asset, lastUnused + 1)
  else do
    let address ← w.innerAddress x.env (if isChange then .internal else .external)
      (addresseeIndex x.env lastUnused)
    if isChange && !w.hasConfidentialUtxo then
      pure (Recipient.fromAddress satoshi { address.1 with blindingPubkey := none } asset,
        lastUnused + 1)
    else pure (Recipient.fromAddress satoshi address.1 asset, lastUnused + 1)

def addresseeChange (x : Builder) (w : Wollet) (satoshi : UInt64) (asset : AssetId) :
    BuildM Recipient := do
  let b ← get
  let r ← liftExcept (w.addresseeInner x satoshi asset b.lastUnusedInternal true)
  set { b with lastUnusedInternal := r.2 }
  pure r.1

def addresseeExternal (x : Builder) (w : Wollet) (satoshi : UInt64) (asset : AssetId) :
    BuildM Recipient := do
  let b ← get
  let r ← liftExcept (w.addresseeInner x satoshi asset b.lastUnusedExternal false)
  set { b with lastUnusedExternal := r.2 }
  pure r.1

end Wollet

/-! ## Issuances -/

def modifyInput (idx : Nat) (f : PsetInput → PsetInput) : BuildM PsetInput := do
  let b ← get
  match b.pset.inputs[idx]? with
  | none => throw .missingVin
  | some input =>
    set { b with pset := { b.pset with inputs := b.pset.inputs.set idx (f input) } }
    pure (f input)

/-- The contract hash of an issuance, zero without a contract. -/
def contractHashOf : Option Contract → Except Error (BitVec 256)
  | some contract => contract.contractHash
  | none => .ok 0

/-- `set_issuance`: the ids of the asset and of its token. -/
def setIssuance (x : Builder) (idx : Nat) (satoshiAsset satoshiToken : UInt64)
    (contract : Option Contract) : BuildM (AssetId × AssetId) := do
  let b ← get
  ensureElse (decide (idx < b.pset.inputs.length)) .missingVin
  let contractHash ← liftExcept (contractHashOf contract)
  let input ← modifyInput idx fun input =>
    { input with
      issuanceValueAmount :=
        if satoshiAsset > 0 then some satoshiAsset else input.issuanceValueAmount
      issuanceInflationKeys :=
        if satoshiToken > 0 then some satoshiToken else input.issuanceInflationKeys
      issuanceAssetEntropy := some contractHash
      blindedIssuance := some 0 }
  pure (input.issuanceIds x.hash)

/-- `set_reissuance`: the nonce is the asset blinding factor of the token. -/
def setReissuance (idx : Nat) (satoshiAsset : UInt64) (tokenAssetBf : Tweak)
    (entropy : BitVec 256) : BuildM PsetInput :=
  modifyInput idx fun input =>
    { input with
      issuanceValueAmount := some satoshiAsset
      issuanceBlindingNonce := some tokenAssetBf
      issuanceAssetEntropy := some entropy
      blindedIssuance := some 0 }

end Swk
