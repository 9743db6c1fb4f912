import Swk.RawTransaction
import Swk.StateExcept

/-!
# What a Boltz swap is restored from

A swap in progress is stored without its secrets: the keys are derived again from the mnemonic, the
preimage too unless it was drawn at random, and the chains are kept as the names `BTC` and `L-BTC`,
which do not say the network. Three kinds of swaps have three routines to restore them. Those for
invoices and for payments take the network from the session. The one for chain swaps does not: its
names are always read as regtest.
-/

namespace Swk.Boltz

/-! ## States -/

inductive SwapState
  | initialized
  | invoiceSet
  | transactionMempool
  | transactionConfirmed
  | invoicePending
  | invoicePaid
  | transactionClaimPending
  | transactionClaimed
  | transactionLockupFailed
  | transactionFailed
  | invoiceFailedToPay
  | swapCreated
  | transactionDirect
  | invoiceSettled
  | invoiceExpired
  | swapExpired
  | serverTransactionMempool
  | serverTransactionConfirmed
  | transactionZeroconfRejected
  | transactionRefunded
deriving DecidableEq

namespace SwapState

def toString : SwapState → String
  | .initialized => "initialized"
  | .invoiceSet => "invoice.set"
  | .transactionMempool => "transaction.mempool"
  | .transactionConfirmed => "transaction.confirmed"
  | .invoicePending => "invoice.pending"
  | .invoicePaid => "invoice.paid"
  | .transactionClaimPending => "transaction.claim.pending"
  | .transactionClaimed => "transaction.claimed"
  | .transactionLockupFailed => "transaction.lockupFailed"
  | .transactionFailed => "transaction.failed"
  | .invoiceFailedToPay => "invoice.failedToPay"
  | .swapCreated => "swap.created"
  | .transactionDirect => "transaction.direct"
  | .invoiceSettled => "invoice.settled"
  | .invoiceExpired => "invoice.expired"
  | .swapExpired => "swap.expired"
  | .serverTransactionMempool => "transaction.server.mempool"
  | .serverTransactionConfirmed => "transaction.server.confirmed"
  | .transactionZeroconfRejected => "transaction.zeroconf.rejected"
  | .transactionRefunded => "transaction.refunded"

def fromStr (s : String) : Except String SwapState :=
  match s with
  | "initialized" => .ok .initialized
  | "invoice.set" => .ok .invoiceSet
  | "transaction.mempool" => .ok .transactionMempool
  | "transaction.confirmed" => .ok .transactionConfirmed
  | "invoice.pending" => .ok .invoicePending
  | "invoice.paid" => .ok .invoicePaid
  | "transaction.claim.pending" => .ok .transactionClaimPending
  | "transaction.claimed" => .ok .transactionClaimed
  | "transaction.lockupFailed" => .ok .transactionLockupFailed
  | "transaction.failed" => .ok .transactionFailed
  | "invoice.failedToPay" => .ok .invoiceFailedToPay
  | "swap.created" => .ok .swapCreated
  | "transaction.direct" => .ok .transactionDirect
  | "invoice.settled" => .ok .invoiceSettled
  | "invoice.expired" => .ok .invoiceExpired
  | "swap.expired" => .ok .swapExpired
  | "transaction.server.mempool" => .ok .serverTransactionMempool
  | "transaction.server.confirmed" => .ok .serverTransactionConfirmed
  | "transaction.zeroconf.rejected" => .ok .transactionZeroconfRejected
  | "transaction.refunded" => .ok .transactionRefunded
  | s => .error ("Unknown swap status: " ++ s)

def isTerminal : SwapState → Bool
  | .transactionClaimed | .transactionDirect | .invoiceSettled | .invoiceExpired | .swapExpired
  | .transactionFailed => true
  | _ => false

theorem fromStr_toString (s : SwapState) : fromStr s.toString = .ok s := by
  cases s <;> rfl

end SwapState

/-! ## Chains -/

inductive LiquidChain
  | liquid
  | liquidTestnet
  | liquidRegtest
deriving DecidableEq

inductive BitcoinChain
  | bitcoin
  | bitcoinTestnet
  | bitcoinRegtest
deriving DecidableEq

inductive Chain
  | bitcoin (chain : BitcoinChain)
  | liquid (chain : LiquidChain)
deriving DecidableEq

def Chain.toString : Chain → String
  | .bitcoin _ => "BTC"
  | .liquid _ => "L-BTC"

/-- The Bitcoin network that goes with a Liquid one. -/
def LiquidChain.btcChain : LiquidChain → Chain
  | .liquid => .bitcoin .bitcoin
  | .liquidTestnet => .bitcoin .bitcoinTestnet
  | .liquidRegtest => .bitcoin .bitcoinRegtest

/-! ## Keys -/

structure Mnemonic where
  words : String
deriving DecidableEq

abbrev Keypair := SecretKey

/-- The 32 bytes of a preimage; its hashes follow from them. -/
structure Preimage where
  bytes : BitVec 256
deriving DecidableEq

abbrev XKeyIdentifier := BitVec 160

structure Xpriv where
  bytes : List UInt8

structure Bolt11Invoice where
  bytes : List UInt8
deriving DecidableEq

structure Bolt12Invoice where
  bytes : List UInt8
deriving DecidableEq

/-- The errors that restoring and following a swap return. -/
inductive Error
  | failBuildingRefundTransaction (swapId : String)
  | invalidSwapState (status : String)
  | invalidBolt11Invoice (msg : String)
  | invalidBolt12Invoice (msg : String)
  | boltzApi (msg : String)
  | unexpectedUpdate (swapId status : String) (lastState : SwapState)
  | expectedAmountLowerThanInvoice (amount : UInt64) (invoice : String)
  | missingInvoiceInResponse (swapId : String)
  | bip32 (msg : String)
  | secp256k1 (msg : String)
  | swapRestoration (swapId : Option String) (msg : String)
  | retryBroadcastFailed (swapId : String)
  | mnemonicIdentifierMismatch (ours theirs : XKeyIdentifier)
  | store (msg : String)
  | generic (msg : String)
deriving DecidableEq

/-- The third-party code that keys, preimages and invoices come from. -/
structure Crypto where
  toSeed : Mnemonic → List UInt8
  newMaster : List UInt8 → Except String Xpriv
  derivePriv : Xpriv → List UInt32 → Except String (List UInt8)
  keypairFromSeckey : List UInt8 → Except String Keypair
  identifier : Xpriv → XKeyIdentifier
  secretBytes : Keypair → List UInt8
  sha256 : List UInt8 → BitVec 256
  preimageToString : Preimage → String
  preimageFromStr : String → Except String Preimage
  bolt11ToString : Bolt11Invoice → String
  bolt11FromStr : String → Except String Bolt11Invoice
  displayBolt12Invoice : Bolt12Invoice → String
  parseBolt12Invoice : String → Except String Bolt12Invoice
  publicKeyFromStr : String → Except String PublicKey

def fromNormalIdx (index : UInt32) : Except Error UInt32 :=
  if index < 0x80000000 then .ok index
  else .error (.bip32 ("invalid child number " ++ ToString.toString index))

variable (c : Crypto)

/-- `derive_keypair`: the path is `m/44/0/0/0/index`. -/
def deriveKeypair (index : UInt32) (mnemonic : Mnemonic) : Except Error Keypair := do
  let path ← [44, 0, 0, 0, index].mapM fromNormalIdx
  let xpriv ← (c.newMaster (c.toSeed mnemonic)).mapError .bip32
  let derived ← (c.derivePriv xpriv path).mapError .bip32
  (c.keypairFromSeckey derived).mapError .secp256k1

def preimageFromKeypair (ourKeys : Keypair) : Preimage :=
  ⟨c.sha256 (c.secretBytes ourKeys)⟩

def mnemonicIdentifier (mnemonic : Mnemonic) : Except Error XKeyIdentifier := do
  let xpriv ← (c.newMaster (c.toSeed mnemonic)).mapError .bip32
  return c.identifier xpriv

/-! ## What the server answers -/

/-- `SwapRestoreType`. -/
inductive SwapType
  | submarine
  | reverse
  | chain
deriving DecidableEq

structure CreateReverseResponse where
  id : String
  invoice : Option String
  swapTree : String
  lockupAddress : String
  refundPublicKey : PublicKey
  timeoutBlockHeight : UInt32
  onchainAmount : UInt64
  blindingKey : Option String
deriving DecidableEq

structure CreateSubmarineResponse where
  acceptZeroConf : Bool
  address : String
  bip21 : String
  claimPublicKey : PublicKey
  expectedAmount : UInt64
  id : String
  referralId : Option String
  swapTree : String
  timeoutBlockHeight : UInt64
  blindingKey : Option String
deriving DecidableEq

structure ChainSwapDetails where
  swapTree : String
  lockupAddress : String
  serverPublicKey : PublicKey
  timeoutBlockHeight : UInt32
  amount : UInt64
  blindingKey : Option String
  refundAddress : Option String
  claimAddress : Option String
  bip21 : Option String
deriving DecidableEq

structure CreateChainResponse where
  id : String
  claimDetails : ChainSwapDetails
  lockupDetails : ChainSwapDetails
deriving DecidableEq

/-! ## Swaps in progress, and as they are stored -/

structure InvoiceData where
  lastState : SwapState
  swapType : SwapType
  claimBroadcasted : Bool
  fee : Option UInt64
  boltzFee : Option UInt64
  claimFee : Option UInt64
  claimTxid : Option String
  lockupTxid : Option String
  createReverseResponse : CreateReverseResponse
  keyIndex : UInt32
  mnemonicIdentifier : XKeyIdentifier
  ourKeys : Keypair
  preimage : Preimage
  claimAddress : String
  toChain : Chain
  randomPreimage : Bool
deriving DecidableEq

structure InvoiceDataSerializable where
  lastState : SwapState
  swapType : SwapType
  fee : Option UInt64
  boltzFee : Option UInt64
  claimFee : Option UInt64
  claimTxid : Option String
  lockupTxid : Option String
  createReverseResponse : CreateReverseResponse
  keyIndex : UInt32
  claimAddress : String
  toChain : String
  mnemonicIdentifier : XKeyIdentifier
  claimBroadcasted : Option Bool
  preimage : Option String
deriving DecidableEq

structure PreparePayData where
  lastState : SwapState
  swapType : SwapType
  lockupTxid : Option String
  refundTxid : Option String
  fee : Option UInt64
  boltzFee : Option UInt64
  bolt11Invoice : Option Bolt11Invoice
  bolt12Invoice : Option Bolt12Invoice
  createSwapResponse : CreateSubmarineResponse
  ourKeys : Keypair
  refundAddress : String
  keyIndex : UInt32
  mnemonicIdentifier : XKeyIdentifier
  fromChain : Chain
deriving DecidableEq

structure PreparePayDataSerializable where
  lastState : SwapState
  swapType : SwapType
  lockupTxid : Option String
  refundTxid : Option String
  fee : Option UInt64
  boltzFee : Option UInt64
  bolt11Invoice : Option String
  bolt12Invoice : Option String
  createSwapResponse : CreateSubmarineResponse
  keyIndex : UInt32
  refundAddress : String
  mnemonicIdentifier : XKeyIdentifier
  fromChain : String
deriving DecidableEq

structure ChainSwapData where
  lastState : SwapState
  swapType : SwapType
  fee : Option UInt64
  boltzFee : Option UInt64
  claimFee : Option UInt64
  createChainResponse : CreateChainResponse
  claimKeys : Keypair
  refundKeys : Keypair
  preimage : Preimage
  lockupAddress : String
  expectedLockupAmount : UInt64
  claimAddress : String
  refundAddress : String
  claimKeyIndex : UInt32
  refundKeyIndex : UInt32
  mnemonicIdentifier : XKeyIdentifier
  fromChain : Chain
  toChain : Chain
  randomPreimage : Bool
  claimTxid : Option String
  lockupTxid : Option String
  refundTxid : Option String
deriving DecidableEq

structure ChainSwapDataSerializable where
  lastState : SwapState
  swapType : SwapType
  fee : Option UInt64
  boltzFee : Option UInt64
  claimFee : Option UInt64
  createChainResponse : CreateChainResponse
  claimKeyIndex : UInt32
  refundKeyIndex : UInt32
  lockupAddress : String
  expectedLockupAmount : UInt64
  claimAddress : String
  refundAddress : String
  mnemonicIdentifier : XKeyIdentifier
  fromChain : String
  toChain : String
  preimage : Option String
  claimTxid : Option String
  lockupTxid : Option String
  refundTxid : Option String
deriving DecidableEq

/-! ## To what is stored -/

/-- A random preimage is stored, one that can be derived is not. -/
def storedPreimage (randomPreimage : Bool) (preimage : Preimage) : Option String :=
  if randomPreimage then some (c.preimageToString preimage) else none

/-- `InvoiceDataSerializable::from`. -/
def InvoiceData.serializable (i : InvoiceData) : InvoiceDataSerializable where
  lastState := i.lastState
  swapType := i.swapType
  fee := i.fee
  boltzFee := i.boltzFee
  claimFee := i.claimFee
  claimTxid := i.claimTxid
  lockupTxid := i.lockupTxid
  createReverseResponse := i.createReverseResponse
  keyIndex := i.keyIndex
  mnemonicIdentifier := i.mnemonicIdentifier
  claimAddress := i.claimAddress
  toChain := i.toChain.toString
  claimBroadcasted := some i.claimBroadcasted
  preimage := storedPreimage c i.randomPreimage i.preimage

/-- `PreparePayDataSerializable::from`. -/
def PreparePayData.serializable (data : PreparePayData) : PreparePayDataSerializable where
  lastState := data.lastState
  swapType := data.swapType
  lockupTxid := data.lockupTxid
  refundTxid := data.refundTxid
  fee := data.fee
  bolt11Invoice := data.bolt11Invoice.map c.bolt11ToString
  bolt12Invoice := data.bolt12Invoice.map c.displayBolt12Invoice
  createSwapResponse := data.createSwapResponse
  keyIndex := data.keyIndex
  refundAddress := data.refundAddress
  mnemonicIdentifier := data.mnemonicIdentifier
  boltzFee := data.boltzFee
  fromChain := data.fromChain.toString

/-- `ChainSwapDataSerializable::from`. -/
def ChainSwapData.serializable (data : ChainSwapData) : ChainSwapDataSerializable where
  lastState := data.lastState
  swapType := data.swapType
  fee := data.fee
  boltzFee := data.boltzFee
  claimFee := data.claimFee
  createChainResponse := data.createChainResponse
  claimKeyIndex := data.claimKeyIndex
  refundKeyIndex := data.refundKeyIndex
  lockupAddress := data.lockupAddress
  expectedLockupAmount := data.expectedLockupAmount
  claimAddress := data.claimAddress
  refundAddress := data.refundAddress
  mnemonicIdentifier := data.mnemonicIdentifier
  fromChain := data.fromChain.toString
  toChain := data.toChain.toString
  preimage := storedPreimage c data.randomPreimage data.preimage
  claimTxid := data.claimTxid
  lockupTxid := data.lockupTxid
  refundTxid := data.refundTxid

/-! ## From what is stored -/

/-- A chain from its name, on the network of the session: `reverse_chain_from_str` and
`submarine_chain_from_str` but for their messages. -/
def sessionChainFromStr (chain : String) (default : Chain) (swapId : Option String)
    (expected unknown : String) : Except Error Chain :=
  match default with
  | .bitcoin _ => .error (.swapRestoration swapId expected)
  | .liquid liquidChain =>
    match chain with
    | "BTC" => .ok liquidChain.btcChain
    | "L-BTC" => .ok (.liquid liquidChain)
    | s => .error (.swapRestoration swapId (unknown ++ s))

def reverseChainFromStr (chain : String) (defaultToChain : Chain) (swapId : Option String) :
    Except Error Chain :=
  sessionChainFromStr chain defaultToChain swapId
    "Reverse restore expected a Liquid session chain" "Unknown reverse claim chain: "

def submarineChainFromStr (chain : String) (defaultFromChain : Chain) (swapId : Option String) :
    Except Error Chain :=
  sessionChainFromStr chain defaultFromChain swapId
    "Submarine restore expected a Liquid session chain" "Unknown submarine funding chain: "

/-- `chain_from_str`: always regtest. -/
def chainFromStr (chain : String) (swapId : Option String) : Except Error Chain :=
  match chain with
  | "BTC" => .ok (.bitcoin .bitcoinRegtest)
  | "L-BTC" => .ok (.liquid .liquidRegtest)
  | s => .error (.swapRestoration swapId ("Unknown chain: " ++ s))

/-- The preimage that was stored, or that of the keys. -/
def restoredPreimage (preimage : Option String) (keys : Keypair) : Except Error Preimage :=
  match preimage with
  | some preimage => (c.preimageFromStr preimage).mapError .boltzApi
  | none => .ok (preimageFromKeypair c keys)

/-- The check that a swap was made with the mnemonic at hand. -/
def checkMnemonic (mnemonic : Mnemonic) (stored : XKeyIdentifier) :
    Except Error XKeyIdentifier := do
  let identifier ← mnemonicIdentifier c mnemonic
  require (identifier = stored) (.mnemonicIdentifierMismatch identifier stored)
  return identifier

def toInvoiceData (i : InvoiceDataSerializable) (mnemonic : Mnemonic)
    (defaultToChain : Chain) : Except Error InvoiceData := do
  let ourKeys ← deriveKeypair c i.keyIndex mnemonic
  let preimage ← restoredPreimage c i.preimage ourKeys
  let _ ← checkMnemonic c mnemonic i.mnemonicIdentifier
  let toChain ← reverseChainFromStr i.toChain defaultToChain none
  return {
    lastState := i.lastState
    swapType := i.swapType
    fee := i.fee
    boltzFee := i.boltzFee
    claimFee := i.claimFee
    claimTxid := i.claimTxid
    lockupTxid := i.lockupTxid
    createReverseResponse := i.createReverseResponse
    ourKeys
    preimage
    claimAddress := i.claimAddress
    toChain
    keyIndex := i.keyIndex
    mnemonicIdentifier := i.mnemonicIdentifier
    claimBroadcasted := i.claimBroadcasted.getD false
    randomPreimage := i.preimage.isSome }

def restoredInvoice {Invoice : Type} (parse : String → Except Error Invoice)
    (invoice : Option String) : Except Error (Option Invoice) :=
  match invoice with
  | some text => (parse text).map some
  | none => .ok none

def toPreparePayData (data : PreparePayDataSerializable) (mnemonic : Mnemonic)
    (defaultFromChain : Chain) : Except Error PreparePayData := do
  let ourKeys ← deriveKeypair c data.keyIndex mnemonic
  let mnemonicIdentifier ← checkMnemonic c mnemonic data.mnemonicIdentifier
  let bolt11Invoice ← restoredInvoice
    (fun text => (c.bolt11FromStr text).mapError .invalidBolt11Invoice) data.bolt11Invoice
  let bolt12Invoice ← restoredInvoice
    (fun text => (c.parseBolt12Invoice text).mapError .invalidBolt12Invoice) data.bolt12Invoice
  let fromChain ← submarineChainFromStr data.fromChain defaultFromChain
    (some data.createSwapResponse.id)
  return {
    lastState := data.lastState
    swapType := data.swapType
    lockupTxid := data.lockupTxid
    refundTxid := data.refundTxid
    fee := data.fee
    bolt11Invoice
    bolt12Invoice
    createSwapResponse := data.createSwapResponse
    ourKeys
    refundAddress := data.refundAddress
    keyIndex := data.keyIndex
    mnemonicIdentifier
    boltzFee := data.boltzFee
    fromChain }

def toChainData (data : ChainSwapDataSerializable) (mnemonic : Mnemonic) :
    Except Error ChainSwapData := do
  let claimKeys ← deriveKeypair c data.claimKeyIndex mnemonic
  let refundKeys ← deriveKeypair c data.refundKeyIndex mnemonic
  let preimage ← restoredPreimage c data.preimage claimKeys
  let mnemonicIdentifier ← checkMnemonic c mnemonic data.mnemonicIdentifier
  let fromChain ← chainFromStr data.fromChain (some data.createChainResponse.id)
  let toChain ← chainFromStr data.toChain (some data.createChainResponse.id)
  return {
    lastState := data.lastState
    swapType := data.swapType
    fee := data.fee
    boltzFee := data.boltzFee
    claimFee := data.claimFee
    createChainResponse := data.createChainResponse
    claimKeys
    refundKeys
    preimage
    lockupAddress := data.lockupAddress
    expectedLockupAmount := data.expectedLockupAmount
    claimAddress := data.claimAddress
    refundAddress := data.refundAddress
    claimKeyIndex := data.claimKeyIndex
    refundKeyIndex := data.refundKeyIndex
    mnemonicIdentifier
    fromChain
    toChain
    randomPreimage := data.preimage.isSome
    claimTxid := data.claimTxid
    lockupTxid := data.lockupTxid
    refundTxid := data.refundTxid }

/-! ## New swaps -/

structure BoltzSession where
  mnemonic : Mnemonic
  liquidChain : LiquidChain
  randomPreimages : Bool

namespace BoltzSession

variable (s : BoltzSession) (c : Crypto)

def chain : Chain := .liquid s.liquidChain

def btcChain : Chain := s.liquidChain.btcChain

def preimage (random : Preimage) (ourKeys : Keypair) : Preimage :=
  if s.randomPreimages then random else preimageFromKeypair c ourKeys

/-- `swap_state` of an update. -/
def swapState (status : String) : Except Error SwapState :=
  (SwapState.fromStr status).mapError fun _ => .invalidSwapState status

/-- The data `invoice_with_chain` makes, from what the server and the random source answer and the
fees its pair has. `checked` stands for what may only stop it: the signature of the address, the
invoice's text and hint, the script and the subscription. -/
def invoiceWithChain (keyIndex : UInt32) (random : Preimage) (amount : UInt64) (toChain : Chain)
    (claimAddress : String) (response : CreateReverseResponse) (pairFees : Option (UInt64 × UInt64))
    (checked : Except Error Unit) (status : String) : Except Error InvoiceData := do
  let ourKeys ← deriveKeypair c keyIndex s.mnemonic
  let _ ← okOr response.invoice (.missingInvoiceInResponse response.id)
  let fee ← okOr (checkedSub amount response.onchainAmount)
    (.expectedAmountLowerThanInvoice amount response.id)
  checked
  let lastState ← swapState status
  let mnemonicIdentifier ← mnemonicIdentifier c s.mnemonic
  return {
    lastState
    swapType := .reverse
    fee := some fee
    boltzFee := pairFees.map Prod.fst
    claimFee := pairFees.map Prod.snd
    claimTxid := none
    lockupTxid := none
    createReverseResponse := response
    ourKeys
    preimage := s.preimage c random ourKeys
    claimAddress
    toChain
    keyIndex
    mnemonicIdentifier
    claimBroadcasted := false
    randomPreimage := s.randomPreimages }

/-- The data `prepare_pay_with_chain` makes for an invoice, which is one of the two kinds. -/
def preparePayWithChain (keyIndex : UInt32) (invoice : Bolt11Invoice ⊕ Bolt12Invoice)
    (amountSats : UInt64) (chain : Chain) (refundAddress : String)
    (response : CreateSubmarineResponse) (boltzFee : Option UInt64)
    (checked : Except Error Unit) : Except Error PreparePayData := do
  let ourKeys ← deriveKeypair c keyIndex s.mnemonic
  let fee ← okOr (checkedSub response.expectedAmount amountSats)
    (.expectedAmountLowerThanInvoice response.expectedAmount
      (invoice.elim c.bolt11ToString c.displayBolt12Invoice))
  checked
  let mnemonicIdentifier ← mnemonicIdentifier c s.mnemonic
  return {
    lastState := .invoiceSet
    swapType := .submarine
    lockupTxid := none
    refundTxid := none
    fee := some fee
    boltzFee
    bolt11Invoice := invoice.getLeft?
    bolt12Invoice := invoice.getRight?
    ourKeys
    refundAddress
    createSwapResponse := response
    keyIndex
    mnemonicIdentifier
    fromChain := chain }

def onchainSwap (claimKeyIndex refundKeyIndex : UInt32) (random : Preimage)
    (fromChain toChain : Chain) (refundAddress claimAddress : String)
    (response : CreateChainResponse) (pairFees : Option (UInt64 × UInt64))
    (checked : Except Error Unit) (status : String) : Except Error ChainSwapData := do
  let claimKeys ← deriveKeypair c claimKeyIndex s.mnemonic
  let refundKeys ← deriveKeypair c refundKeyIndex s.mnemonic
  checked
  let lastState ← swapState status
  let mnemonicIdentifier ← mnemonicIdentifier c s.mnemonic
  return {
    lastState
    swapType := .chain
    fee := some (.ofNat (response.lockupDetails.amount.toNat - response.claimDetails.amount.toNat))
    boltzFee := pairFees.map Prod.fst
    claimFee := pairFees.map Prod.snd
    createChainResponse := response
    claimKeys
    refundKeys
    preimage := s.preimage c random claimKeys
    lockupAddress := response.lockupDetails.lockupAddress
    expectedLockupAmount := response.lockupDetails.amount
    claimAddress
    refundAddress
    claimKeyIndex
    refundKeyIndex
    mnemonicIdentifier
    fromChain
    toChain
    randomPreimage := s.randomPreimages
    claimTxid := none
    lockupTxid := none
    refundTxid := none }

end BoltzSession

/-! ## Restoring -/

/-- The texts that third-party code writes are read back. -/
structure Crypto.RoundTrips (c : Crypto) : Prop where
  preimage : ∀ p, c.preimageFromStr (c.preimageToString p) = .ok p
  bolt11 : ∀ i, c.bolt11FromStr (c.bolt11ToString i) = .ok i
  bolt12 : ∀ i, c.parseBolt12Invoice (c.displayBolt12Invoice i) = .ok i

/-- A swap is one of the session's. Its state, its txids and what the server said may be
anything. -/
structure InvoiceData.CreatedBy (i : InvoiceData) (c : Crypto) (s : BoltzSession) : Prop where
  keys : deriveKeypair c i.keyIndex s.mnemonic = .ok i.ourKeys
  identifier : Boltz.mnemonicIdentifier c s.mnemonic = .ok i.mnemonicIdentifier
  preimage : i.randomPreimage = false → i.preimage = preimageFromKeypair c i.ourKeys
  toChain : i.toChain = s.chain ∨ i.toChain = s.btcChain

structure PreparePayData.CreatedBy (d : PreparePayData) (c : Crypto) (s : BoltzSession) : Prop where
  keys : deriveKeypair c d.keyIndex s.mnemonic = .ok d.ourKeys
  identifier : Boltz.mnemonicIdentifier c s.mnemonic = .ok d.mnemonicIdentifier
  fromChain : d.fromChain = s.chain ∨ d.fromChain = s.btcChain

structure ChainSwapData.CreatedBy (d : ChainSwapData) (c : Crypto) (s : BoltzSession) : Prop where
  claimKeys : deriveKeypair c d.claimKeyIndex s.mnemonic = .ok d.claimKeys
  refundKeys : deriveKeypair c d.refundKeyIndex s.mnemonic = .ok d.refundKeys
  identifier : Boltz.mnemonicIdentifier c s.mnemonic = .ok d.mnemonicIdentifier
  preimage : d.randomPreimage = false → d.preimage = preimageFromKeypair c d.claimKeys
  chains : d.fromChain = s.chain ∧ d.toChain = s.btcChain ∨
    d.fromChain = s.btcChain ∧ d.toChain = s.chain

section Created

variable {c : Crypto} {s : BoltzSession} {keyIndex claimKeyIndex refundKeyIndex : UInt32}
  {random : Preimage} {amount : UInt64} {chain fromChain toChain : Chain}
  {claimAddress refundAddress status : String} {pairFees : Option (UInt64 × UInt64)}
  {checked : Except Error Unit}

theorem preimage_of_not_random {ourKeys : Keypair} (h : s.randomPreimages = false) :
    s.preimage c random ourKeys = preimageFromKeypair c ourKeys := by
  unfold BoltzSession.preimage
  rw [h, if_neg Bool.false_ne_true]

theorem invoiceWithChain_created {response : CreateReverseResponse} {i : InvoiceData}
    (h : s.invoiceWithChain c keyIndex random amount toChain claimAddress response pairFees checked
      status = .ok i) (hchain : toChain = s.chain ∨ toChain = s.btcChain) : i.CreatedBy c s := by
  obtain ⟨ourKeys, hkeys, h⟩ := except_bind_ok_iff.1 h
  obtain ⟨_, -, h⟩ := except_bind_ok_iff.1 h
  obtain ⟨fee, -, h⟩ := except_bind_ok_iff.1 h
  obtain ⟨_, -, h⟩ := except_bind_ok_iff.1 h
  obtain ⟨lastState, -, h⟩ := except_bind_ok_iff.1 h
  obtain ⟨identifier, hidentifier, h⟩ := except_bind_ok_iff.1 h
  cases h
  exact ⟨hkeys, hidentifier, preimage_of_not_random, hchain⟩

theorem preparePayWithChain_created {invoice : Bolt11Invoice ⊕ Bolt12Invoice}
    {response : CreateSubmarineResponse} {boltzFee : Option UInt64} {d : PreparePayData}
    (h : s.preparePayWithChain c keyIndex invoice amount chain refundAddress response boltzFee
      checked = .ok d) (hchain : chain = s.chain ∨ chain = s.btcChain) : d.CreatedBy c s := by
  obtain ⟨ourKeys, hkeys, h⟩ := except_bind_ok_iff.1 h
  obtain ⟨fee, -, h⟩ := except_bind_ok_iff.1 h
  obtain ⟨_, -, h⟩ := except_bind_ok_iff.1 h
  obtain ⟨identifier, hidentifier, h⟩ := except_bind_ok_iff.1 h
  cases h
  exact ⟨hkeys, hidentifier, hchain⟩

theorem onchainSwap_created {response : CreateChainResponse} {d : ChainSwapData}
    (h : s.onchainSwap c claimKeyIndex refundKeyIndex random fromChain toChain refundAddress
      claimAddress response pairFees checked status = .ok d)
    (hchains : fromChain = s.chain ∧ toChain = s.btcChain ∨
      fromChain = s.btcChain ∧ toChain = s.chain) : d.CreatedBy c s := by
  obtain ⟨claimKeys, hclaim, h⟩ := except_bind_ok_iff.1 h
  obtain ⟨refundKeys, hrefund, h⟩ := except_bind_ok_iff.1 h
  obtain ⟨_, -, h⟩ := except_bind_ok_iff.1 h
  obtain ⟨lastState, -, h⟩ := except_bind_ok_iff.1 h
  obtain ⟨identifier, hidentifier, h⟩ := except_bind_ok_iff.1 h
  cases h
  exact ⟨hclaim, hrefund, hidentifier, preimage_of_not_random, hchains⟩

end Created

section Restoring

variable {c : Crypto} {s : BoltzSession} {m : Mnemonic}

variable {random : Bool} {identifier : XKeyIdentifier} {d : ChainSwapData} {default : Chain}

theorem restoredPreimage_stored (hc : c.RoundTrips) {keys : Keypair} {preimage : Preimage}
    (h : random = false → preimage = preimageFromKeypair c keys) :
    restoredPreimage c (storedPreimage c random preimage) keys = .ok preimage := by
  cases random with
  | true => simp [storedPreimage, restoredPreimage, hc.preimage, Except.mapError]
  | false => simp [storedPreimage, restoredPreimage, h rfl]

theorem storedPreimage_isSome {preimage : Preimage} :
    (storedPreimage c random preimage).isSome = random := by
  cases random <;> rfl

theorem restoredInvoice_map {Invoice : Type} {parse : String → Except Error Invoice}
    {display : Invoice → String} (h : ∀ i, parse (display i) = .ok i) (invoice : Option Invoice) :
    restoredInvoice parse (invoice.map display) = .ok invoice := by
  cases invoice with
  | none => rfl
  | some i => simp [restoredInvoice, h, Except.map]

theorem checkMnemonic_ok (h : mnemonicIdentifier c m = .ok identifier) :
    checkMnemonic c m identifier = .ok identifier := by
  unfold checkMnemonic
  rw [h]
  simp [require, bind, Except.bind, pure, Except.pure]

theorem checkMnemonic_error (h : mnemonicIdentifier c m ≠ .ok identifier) :
    ∀ i, checkMnemonic c m identifier ≠ .ok i := by
  intro i hok
  obtain ⟨ours, hours, hok⟩ := except_bind_ok_iff.1 hok
  obtain ⟨_, hsame, -⟩ := except_bind_ok_iff.1 hok
  have heq : ours = identifier := by simpa using require_ok_iff.1 hsame
  exact h (heq ▸ hours)

theorem sessionChainFromStr_toString {chain : Chain} {swapId : Option String}
    {expected unknown : String} (h : chain = s.chain ∨ chain = s.btcChain) :
    sessionChainFromStr chain.toString s.chain swapId expected unknown = .ok chain := by
  rcases h with rfl | rfl
  · rfl
  · unfold BoltzSession.btcChain BoltzSession.chain
    cases s.liquidChain <;> rfl

theorem toInvoiceData_serializable (hc : c.RoundTrips) {i : InvoiceData} (h : i.CreatedBy c s) :
    toInvoiceData c (i.serializable c) s.mnemonic s.chain = .ok i := by
  have hkeys : deriveKeypair c (i.serializable c).keyIndex s.mnemonic = .ok i.ourKeys := h.keys
  have hpreimage : restoredPreimage c (i.serializable c).preimage i.ourKeys = .ok i.preimage :=
    restoredPreimage_stored hc h.preimage
  have hcheck : checkMnemonic c s.mnemonic (i.serializable c).mnemonicIdentifier =
      .ok i.mnemonicIdentifier := checkMnemonic_ok h.identifier
  have hchain : reverseChainFromStr (i.serializable c).toChain s.chain none = .ok i.toChain :=
    sessionChainFromStr_toString h.toChain
  unfold toInvoiceData
  simp only [hkeys, hpreimage, hcheck, hchain, bind, Except.bind, pure, Except.pure]
  cases i
  simp [InvoiceData.serializable, storedPreimage_isSome]

theorem toPreparePayData_serializable (hc : c.RoundTrips) {d : PreparePayData}
    (h : d.CreatedBy c s) : toPreparePayData c (d.serializable c) s.mnemonic s.chain = .ok d := by
  have hkeys : deriveKeypair c (d.serializable c).keyIndex s.mnemonic = .ok d.ourKeys := h.keys
  have hcheck : checkMnemonic c s.mnemonic (d.serializable c).mnemonicIdentifier =
      .ok d.mnemonicIdentifier := checkMnemonic_ok h.identifier
  have hbolt11 : restoredInvoice (fun text => (c.bolt11FromStr text).mapError
      Error.invalidBolt11Invoice) (d.serializable c).bolt11Invoice = .ok d.bolt11Invoice :=
    restoredInvoice_map (fun i => by rw [hc.bolt11]; rfl) _
  have hbolt12 : restoredInvoice (fun text => (c.parseBolt12Invoice text).mapError
      Error.invalidBolt12Invoice) (d.serializable c).bolt12Invoice = .ok d.bolt12Invoice :=
    restoredInvoice_map (fun i => by rw [hc.bolt12]; rfl) _
  have hchain : submarineChainFromStr (d.serializable c).fromChain s.chain
      (some (d.serializable c).createSwapResponse.id) = .ok d.fromChain :=
    sessionChainFromStr_toString h.fromChain
  unfold toPreparePayData
  simp only [hkeys, hcheck, hbolt11, hbolt12, hchain, bind, Except.bind, pure, Except.pure]
  rfl

theorem toChainData_serializable (hc : c.RoundTrips) (h : d.CreatedBy c s) :
    ∃ fromChain toChain, chainFromStr d.fromChain.toString (some d.createChainResponse.id) =
        .ok fromChain ∧
      chainFromStr d.toChain.toString (some d.createChainResponse.id) = .ok toChain ∧
      toChainData c (d.serializable c) s.mnemonic = .ok { d with fromChain, toChain } := by
  have hname : ∀ chain : Chain, ∃ restored,
      chainFromStr chain.toString (some d.createChainResponse.id) = .ok restored := by
    intro chain
    cases chain with
    | bitcoin _ => exact ⟨_, rfl⟩
    | liquid _ => exact ⟨_, rfl⟩
  obtain ⟨fromChain, hfrom⟩ := hname d.fromChain
  obtain ⟨toChain, hto⟩ := hname d.toChain
  refine ⟨fromChain, toChain, hfrom, hto, ?_⟩
  have hclaim : deriveKeypair c (d.serializable c).claimKeyIndex s.mnemonic = .ok d.claimKeys :=
    h.claimKeys
  have hrefund : deriveKeypair c (d.serializable c).refundKeyIndex s.mnemonic = .ok d.refundKeys :=
    h.refundKeys
  have hpreimage : restoredPreimage c (d.serializable c).preimage d.claimKeys = .ok d.preimage :=
    restoredPreimage_stored hc h.preimage
  have hcheck : checkMnemonic c s.mnemonic (d.serializable c).mnemonicIdentifier =
      .ok d.mnemonicIdentifier := checkMnemonic_ok h.identifier
  have hfrom' : chainFromStr (d.serializable c).fromChain
      (some (d.serializable c).createChainResponse.id) = .ok fromChain := hfrom
  have hto' : chainFromStr (d.serializable c).toChain
      (some (d.serializable c).createChainResponse.id) = .ok toChain := hto
  unfold toChainData
  simp only [hclaim, hrefund, hpreimage, hcheck, hfrom', hto', bind, Except.bind, pure, Except.pure]
  cases d
  simp [ChainSwapData.serializable, storedPreimage_isSome]

theorem toInvoiceData_error {i : InvoiceDataSerializable}
    (h : mnemonicIdentifier c m ≠ .ok i.mnemonicIdentifier) :
    ∀ i', toInvoiceData c i m default ≠ .ok i' := by
  intro i' hok
  iterate 2 obtain ⟨_, -, hok⟩ := except_bind_ok_iff.1 hok
  obtain ⟨_, hcheck, -⟩ := except_bind_ok_iff.1 hok
  exact checkMnemonic_error h _ hcheck

theorem toPreparePayData_error {d : PreparePayDataSerializable}
    (h : mnemonicIdentifier c m ≠ .ok d.mnemonicIdentifier) :
    ∀ d', toPreparePayData c d m default ≠ .ok d' := by
  intro d' hok
  obtain ⟨_, -, hok⟩ := except_bind_ok_iff.1 hok
  obtain ⟨_, hcheck, -⟩ := except_bind_ok_iff.1 hok
  exact checkMnemonic_error h _ hcheck

theorem toChainData_error {d : ChainSwapDataSerializable}
    (h : mnemonicIdentifier c m ≠ .ok d.mnemonicIdentifier) : ∀ d', toChainData c d m ≠ .ok d' := by
  intro d' hok
  iterate 3 obtain ⟨_, -, hok⟩ := except_bind_ok_iff.1 hok
  obtain ⟨_, hcheck, -⟩ := except_bind_ok_iff.1 hok
  exact checkMnemonic_error h _ hcheck

theorem toChainData_serializable_iff (hc : c.RoundTrips) (h : d.CreatedBy c s) :
    toChainData c (d.serializable c) s.mnemonic = .ok d ↔ s.liquidChain = .liquidRegtest := by
  obtain ⟨fromChain, toChain, hfrom, hto, hrestored⟩ := toChainData_serializable hc h
  have hsame : toChainData c (d.serializable c) s.mnemonic = .ok d ↔
      fromChain = d.fromChain ∧ toChain = d.toChain := by
    rw [hrestored]
    cases d
    simp
  rw [hsame]
  rcases h.chains with ⟨hf, ht⟩ | ⟨hf, ht⟩
  all_goals
    rw [hf] at hfrom ⊢
    rw [ht] at hto ⊢
    unfold BoltzSession.chain BoltzSession.btcChain at *
    cases hliquid : s.liquidChain <;> rw [hliquid] at hfrom hto <;> cases hfrom <;> cases hto <;>
      simp [LiquidChain.btcChain]

end Restoring

/-- **Swaps restore as they were**, chain swaps on regtest only; and with a mnemonic of another
identifier none does. -/
theorem swaps_restore_iff (c : Crypto) (hc : c.RoundTrips) (s : BoltzSession) :
    (∀ i : InvoiceData, i.CreatedBy c s →
      toInvoiceData c (i.serializable c) s.mnemonic s.chain = .ok i) ∧
    (∀ d : PreparePayData, d.CreatedBy c s →
      toPreparePayData c (d.serializable c) s.mnemonic s.chain = .ok d) ∧
    (∀ d : ChainSwapData, d.CreatedBy c s →
      (toChainData c (d.serializable c) s.mnemonic = .ok d ↔ s.liquidChain = .liquidRegtest)) ∧
    ∀ m : Mnemonic, (∀ i : InvoiceData, mnemonicIdentifier c m ≠ .ok i.mnemonicIdentifier →
        ∃ e, toInvoiceData c (i.serializable c) m s.chain = .error e) ∧
      (∀ d : PreparePayData, mnemonicIdentifier c m ≠ .ok d.mnemonicIdentifier →
        ∃ e, toPreparePayData c (d.serializable c) m s.chain = .error e) ∧
      ∀ d : ChainSwapData, mnemonicIdentifier c m ≠ .ok d.mnemonicIdentifier →
        ∃ e, toChainData c (d.serializable c) m = .error e := by
  have herror : ∀ {α : Type} {x : Except Error α}, (∀ a, x ≠ .ok a) → ∃ e, x = .error e := by
    intro α x hx
    cases x with
    | ok a => exact absurd rfl (hx a)
    | error e => exact ⟨e, rfl⟩
  refine ⟨?_, ?_, ?_, ?_⟩
  · intro i hi
    exact toInvoiceData_serializable hc hi
  · intro d hd
    exact toPreparePayData_serializable hc hd
  · intro d hd
    exact toChainData_serializable_iff hc hd
  · intro m
    refine ⟨?_, ?_, ?_⟩
    · intro i hi
      exact herror (toInvoiceData_error hi)
    · intro d hd
      exact herror (toPreparePayData_error hd)
    · intro d hd
      exact herror (toChainData_error hd)

namespace MainnetSwap

def crypto : Crypto where
  toSeed := fun m => m.words.toList.map fun ch => .ofNat ch.toNat
  newMaster := fun seed => .ok ⟨seed⟩
  derivePriv := fun xpriv path => .ok (xpriv.bytes ++ path.map UInt32.toUInt8)
  keypairFromSeckey := fun bytes => .ok (.ofNat 256 bytes.length)
  identifier := fun xpriv => .ofNat 160 xpriv.bytes.length
  secretBytes := fun keys => [.ofNat keys.toNat]
  sha256 := fun bytes => .ofNat 256 bytes.length
  preimageToString := fun p => .ofList (Nat.toDigits 10 p.bytes.toNat)
  preimageFromStr := fun s => .ok ⟨.ofNat 256 (Nat.ofDigitChars 10 s.toList 0)⟩
  bolt11ToString := fun i => .ofList (i.bytes.map fun b => .ofNat b.toNat)
  bolt11FromStr := fun s => .ok ⟨s.toList.map fun ch => .ofNat ch.toNat⟩
  displayBolt12Invoice := fun i => .ofList (i.bytes.map fun b => .ofNat b.toNat)
  parseBolt12Invoice := fun s => .ok ⟨s.toList.map fun ch => .ofNat ch.toNat⟩
  publicKeyFromStr := fun _ => .ok ⟨false, 2⟩

theorem bytes_roundTrip (bytes : List UInt8) :
    (String.ofList (bytes.map fun b => Char.ofNat b.toNat)).toList.map
      (fun ch => UInt8.ofNat ch.toNat) = bytes := by
  have hbyte : ∀ n : Fin 256, UInt8.ofNat (Char.ofNat n).toNat = UInt8.ofNat n := by
    decide +kernel
  rw [String.toList_ofList, List.map_map]
  have hid : (fun ch : Char => UInt8.ofNat ch.toNat) ∘ (fun b : UInt8 => Char.ofNat b.toNat) =
      id := by
    funext b
    exact (hbyte ⟨b.toNat, b.toNat_lt⟩).trans UInt8.ofNat_toNat
  rw [hid, List.map_id]

theorem preimage_roundTrip (p : Preimage) :
    crypto.preimageFromStr (crypto.preimageToString p) = .ok p := by
  simp [crypto, Nat.ofDigitChars_ten_toDigits]

theorem crypto_roundTrips : crypto.RoundTrips :=
  ⟨preimage_roundTrip,
    fun i => congrArg (fun b => Except.ok (⟨b⟩ : Bolt11Invoice)) (bytes_roundTrip i.bytes),
    fun i => congrArg (fun b => Except.ok (⟨b⟩ : Bolt12Invoice)) (bytes_roundTrip i.bytes)⟩

def session : BoltzSession := ⟨⟨"abandon about"⟩, .liquid, false⟩

def details : ChainSwapDetails :=
  ⟨"tree", "address", ⟨false, 2⟩, 900000, 1000, none, none, none, none⟩

def created : Except Error ChainSwapData :=
  session.onchainSwap crypto 0 1 ⟨0⟩ session.btcChain session.chain "refund" "claim"
    ⟨"swap", details, details⟩ none (.ok ()) "swap.created"

theorem created_by_session {d : ChainSwapData} (h : created = .ok d) : d.CreatedBy crypto session :=
  onchainSwap_created h (.inr ⟨rfl, rfl⟩)

/-- The swap comes back on regtest. -/
theorem swap_changes_network : ∃ d, created = .ok d ∧ d.CreatedBy crypto session ∧
    d.toChain = .liquid .liquid ∧ toChainData crypto (d.serializable crypto) session.mnemonic =
      .ok { d with fromChain := .bitcoin .bitcoinRegtest, toChain := .liquid .liquidRegtest } := by
  exact ⟨_, rfl, created_by_session rfl, rfl, rfl⟩

theorem swaps_restore_iff_mainnet : ∃ d, created = .ok d ∧
    toChainData crypto (d.serializable crypto) session.mnemonic ≠ .ok d := by
  refine ⟨_, rfl, ?_⟩
  intro hrestored
  have hregtest := ((swaps_restore_iff crypto crypto_roundTrips session).2.2.1 _
    (created_by_session rfl)).1 hrestored
  cases hregtest

end MainnetSwap

end Swk.Boltz
