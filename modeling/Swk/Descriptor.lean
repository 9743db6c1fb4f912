import Swk.ElementsCodec
import Swk.Update

/-!
# Wallet descriptors

`WolletDescriptor`, following `descriptor.rs`: either a CT descriptor, which derives a script and
a blinding key at every index of its one or two chains, or a plain list of scripts with their
optional blinding keys. Deriving from a CT descriptor and the curve operations are third-party
code, so they are data here; choosing the chain, looking a script up and unblinding an output
are the wallet's own.
-/

namespace Swk

inductive LiquidexError
  | inputMissingAsset
  | inputMissingAbf
  | inputMissingAmount
  | inputMissingBlindValueProof
  | outputMissingAsset
  | outputMissingAbf
  | outputMissingAmount
  | outputMissingBlindValueProof
  | unexpectedInputs
  | unexpectedOutputs
  | unexpectedScalars
  | makerInvalidParams
  | takerInvalidParams
  | verificationFailed
  | missingSignature
deriving DecidableEq

/-- `lwk_wollet::Error`, as far as the modelled code raises it. -/
inductive Error
  | generic (msg : String)
  | bitcoinBip32Error
  | elementsEncode (e : DecodeError)
  | descConversion
  | unblind
  | scriptNotMine
  | missingPrivateBlindingKey
  | missingIssuance
  | missingTransaction
  | missingWalletUtxo (outpoint : OutPoint)
  | updateHeightTooOld (updateTipHeight cacheTipHeight : Height)
  | updateOnDifferentStatus (wolletStatus updateStatus : UInt64)
  | waterfallsUnimplemented
  | usingWaterfallsWithElip151
  | storeError
  | indexWithoutWildcard
  | amp0AddressError
  | unsupportedWithoutDescriptor
  | indexOutOfRange
  | utxoOnlyIncompatible
  | client
  | tooManyInputs (n : Nat)
  | notConfidentialAddress
  | notConfidentialInput
  | missingVin
  | missingVout
  | insufficientFunds (missingSats : UInt64) (assetId : AssetId) (isToken : Bool)
  | liquidexError (e : LiquidexError)
  | pset
  | blind
  /-- A failed `expect`: the code panics. -/
  | expectFailed (msg : String)
deriving DecidableEq

structure Secp where
  publicKey : SecretKey → PublicKey
  /-- `TxOut::unblind`: rewind the range proof with the receiver's key. -/
  unblind : TxOut → SecretKey → Option TxOutSecrets

/-! ## Descriptors -/

structure SingleDescriptor where
  /-- `Chain::try_from`: the last step of its derivation path. -/
  chain : Option Chain
  hasWildcard : Bool
  derive : UInt32 → Except Error (Script × PublicKey)

/-- A CT descriptor: the chains it stands for and the blinding key of each script. -/
structure ConfidentialDescriptor where
  head : SingleDescriptor
  change : Option SingleDescriptor
  blindingKey : Script → Option SecretKey
  isSegwit : Bool

structure Spk where
  blindingKey : Option SecretKey
  scriptPubkey : Script

inductive DescOrSpks
  | desc (d : ConfidentialDescriptor)
  | spks (l : List Spk)

structure WolletDescriptor where
  inner : DescOrSpks
  isAmp0 : Bool

namespace WolletDescriptor

variable (d : WolletDescriptor)

/-- `inner_descriptor_if_available`: a descriptor without a change chain serves both. -/
def innerDescriptorIfAvailable (extInt : Chain) : Except Error SingleDescriptor :=
  match d.inner with
  | .desc c =>
    match extInt, c.change with
    | .internal, some change => .ok change
    | _, _ => .ok c.head
  | .spks _ => .error .unsupportedWithoutDescriptor

/-- `as_single_descriptors`: what each chain says of itself, with its wildcard. -/
def asSingleDescriptors : List (Option Chain × Bool) :=
  match d.inner with
  | .desc c =>
    (c.head.chain, c.head.hasWildcard) :: (c.change.toList.map fun s => (s.chain, s.hasWildcard))
  | .spks _ => [(some .external, false)]

def deriveScriptAndBlindingKey (secp : Secp) (d : WolletDescriptor) (extInt : Chain)
    (child : ChildNumber) : Except Error (Script × Option PublicKey) :=
  match d.inner with
  | .desc _ => do
      let single ← d.innerDescriptorIfAvailable extInt
      let r ← single.derive child.toU32
      pure (r.1, some r.2)
  | .spks l =>
    match l[child.toU32.toNat]? with
    | some spk => .ok (spk.scriptPubkey, spk.blindingKey.map secp.publicKey)
    | none => .error .indexOutOfRange

/-- The blinding key in the address of `ct_definite_descriptor`. -/
def ctDefiniteBlindingPubkey (extInt : Chain) (index : UInt32) : Except Error PublicKey := do
  let single ← d.innerDescriptorIfAvailable extInt
  let r ← single.derive index
  pure r.2

def blindingKeyForScript (scriptPubkey : Script) : Option SecretKey :=
  match d.inner with
  | .desc c => c.blindingKey scriptPubkey
  | .spks l => (l.find? fun s => s.scriptPubkey = scriptPubkey).bind (·.blindingKey)

def spkCount : Option Nat :=
  match d.inner with
  | .desc _ => none
  | .spks l => some l.length

def hasWildcard : Bool :=
  match d.inner with
  | .desc c => c.head.hasWildcard
  | .spks _ => false

/-- `Wollet::is_segwit`: whether inputs are spent by witness. -/
def isSegwit : Bool :=
  match d.inner with
  | .desc c => c.isSegwit
  | .spks _ => false

end WolletDescriptor

/-! ## Unblinding -/

/-- `try_unblind`: explicit outputs open to themselves, confidential ones with the key the
descriptor has for their script. -/
def tryUnblind (secp : Secp) (descriptor : WolletDescriptor) (output : TxOut) :
    Except Error TxOutSecrets :=
  match output.asset, output.value, output.nonce with
  | .confidential _, .confidential _, .confidential _ =>
    match descriptor.blindingKeyForScript output.scriptPubkey with
    | none => .error .missingPrivateBlindingKey
    | some receiverSk =>
      match secp.unblind output receiverSk with
      | some secrets => .ok secrets
      | none => .error .unblind
  | .explicit asset, .explicit value, _ => .ok ⟨asset, .zero, value, .zero⟩
  | _, _, _ => .error (.generic "received unconfidential or null asset/value/nonce")

/-- The blinding key of a script entry, derived when the entry has none. A wallet without a
descriptor leaves it out. -/
def fillBlindingPubkey (descriptor : WolletDescriptor) (e : ScriptEntry) :
    Except Error ScriptEntry :=
  match e with
  | (chain, child, script, some pubkey) => .ok (chain, child, script, some pubkey)
  | (chain, child, script, none) =>
    match descriptor.ctDefiniteBlindingPubkey chain child.toU32 with
    | .ok pubkey => .ok (chain, child, script, some pubkey)
    | .error .unsupportedWithoutDescriptor => .ok (chain, child, script, none)
    | .error err => .error err

/-- `compute_blinding_pubkey_if_missing`: older updates carry scripts without their key. -/
def computeBlindingPubkeyIfMissing (descriptor : WolletDescriptor) (l : List ScriptEntry) :
    Except Error (List ScriptEntry) :=
  l.mapM (fillBlindingPubkey descriptor)

namespace Concrete

/-- A chain with the given scripts. -/
def scripts (chain : Chain) (hasWildcard : Bool) (script : UInt32 → Script) : SingleDescriptor :=
  ⟨some chain, hasWildcard, fun index => .ok (script index, ⟨false, 1⟩)⟩

def descriptor (head : SingleDescriptor) (change : Option SingleDescriptor)
    (key : Option SecretKey) : ConfidentialDescriptor := ⟨head, change, fun _ => key, true⟩

end Concrete

end Swk
