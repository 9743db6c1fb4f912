import Swk.PsetCreate

/-!
# The details of a PSET

`get_details` says what a PSET means for a wallet before it is signed: what the wallet pays and
gets (`pset_balance`), who else is paid, what the fee is, which signatures are there and what is
issued. It reads fields the builder leaves to others, which `FullInput` and `FullOutput` add: key
origins, commitments and proofs. Nothing is taken on trust: a script is the wallet's if the
descriptor derives it, and amounts are those the proofs confirm.

Proofs and commitments are third-party code, gathered in `Zkp`.
-/

namespace Swk

/-! ## PSETs in full -/

abbrev DerivationPath := List ChildNumber

/-- `bip32::KeySource`: the fingerprint of a master key and a path from it. -/
abbrev KeySource := BitVec 32 × DerivationPath

structure FullInput extends PsetInput where
  bip32Derivation : List (PublicKey × KeySource)
  tapKeyOrigins : List KeySource
  partialSigs : List PublicKey
  blindAssetProof : Option (List UInt8)
  blindValueProof : Option (List UInt8)
  issuanceValueComm : Option Commitment
  issuanceInflationKeysComm : Option Commitment

/-- A PSET output with all that a review reads. -/
structure FullOutput extends PsetOutput where
  bip32Derivation : List (PublicKey × KeySource)
  tapKeyOrigins : List KeySource
  assetComm : Option Commitment
  amountComm : Option Commitment
  blindAssetProof : Option (List UInt8)
  blindValueProof : Option (List UInt8)
  ecdhPubkey : Option PublicKey
  valueRangeproof : Option (List UInt8)
  assetSurjectionProof : Option (List UInt8)

structure FullPset where
  inputs : List FullInput
  outputs : List FullOutput

/-- A value that may be blinded; the commitment counts if it is there. -/
def Value.ofFields (amount : Option UInt64) (comm : Option Commitment) : Value :=
  match amount, comm with
  | none, none => .null
  | _, some comm => .confidential comm
  | some amount, none => .explicit amount

namespace FullInput

def assetIssuance (i : FullInput) : AssetIssuance where
  assetBlindingNonce := i.issuanceBlindingNonce.getD .zero
  assetEntropy := i.issuanceAssetEntropy.getD 0
  amount := Value.ofFields i.issuanceValueAmount i.issuanceValueComm
  inflationKeys := Value.ofFields i.issuanceInflationKeys i.issuanceInflationKeysComm

def hasIssuance (i : FullInput) : Bool := !i.assetIssuance.isNull

/-- `Input::is_pegin`: a bit of the output index. -/
def isPegin (i : FullInput) : Bool := i.previousOutput.vout.testBit 30

/-- `Input::issuance_ids`. -/
def fullIssuanceIds (h : IssuanceHash) (i : FullInput) : AssetId × AssetId :=
  h.ids i.previousOutput (i.issuanceBlindingNonce.getD .zero) (i.issuanceAssetEntropy.getD 0)
    i.issuanceValueComm.isSome

end FullInput

namespace FullOutput

def isPartiallyBlinded (o : FullOutput) : Bool :=
  o.blindingKey.isSome && (o.amountComm.isSome || o.assetComm.isSome || o.valueRangeproof.isSome ||
    o.assetSurjectionProof.isSome || o.ecdhPubkey.isSome)

def toTxout (o : FullOutput) : TxOut where
  asset :=
    match o.assetComm, o.asset with
    | some generator, _ => .confidential generator
    | none, some id => .explicit id
    | none, none => .null
  value := Value.ofFields o.amount o.amountComm
  nonce :=
    match if o.isPartiallyBlinded then o.ecdhPubkey else o.blindingKey with
    | some key => .confidential key
    | none => .null
  scriptPubkey := o.scriptPubkey
  rangeproof := o.valueRangeproof

end FullOutput

/-! ## What a review calls -/

/-- `lwk_common::Error`, as far as a review raises it. -/
inductive CommonError
  | missingPreviousOutput (idx : Nat) (previousOutpoint : OutPoint)
  | inputPeginUnsupported (idx : Nat)
  | inputBlindedIssuance (idx : Nat)
  | inputNotBlinded (idx : Nat)
  | inputMineNotUnblindable (idx : Nat)
  | inputCommitmentsMismatch (idx : Nat)
  | outputAssetNone (idx : Nat)
  | outputValueNone (idx : Nat)
  | outputAssetValueNone (idx : Nat)
  | blindedFee
  | invalidAssetBlindProof (idx : Nat)
  | invalidValueBlindProof (idx : Nat)
  | outputNotBlinded (idx : Nat)
  | outputMineNotUnblindable (idx : Nat)
  | outputCommitmentsMismatch (idx : Nat)
  | missingPrivateBlindingKey
deriving DecidableEq

structure Zkp where
  newBlinded : AssetId → Tweak → Commitment
  pedersen : UInt64 → Tweak → Commitment → Commitment
  blindAssetProofVerify : List UInt8 → AssetId → Commitment → Bool
  blindValueProofVerify : List UInt8 → UInt64 → Commitment → Commitment → Bool

/-- `commitments`: those of an opening. -/
def commitments (zkp : Zkp) (secrets : TxOutSecrets) : Commitment × Commitment :=
  let assetComm := zkp.newBlinded secrets.asset secrets.assetBf
  (assetComm, zkp.pedersen secrets.value secrets.valueBf assetComm)

/-! ## Scripts of the wallet -/

def Script.isV1P2tr (s : Script) : Bool :=
  s.length == 34 && s[0]? == some 0x51 && s[1]? == some 0x20

/-- `into_single_descriptors`. -/
def ConfidentialDescriptor.singles (c : ConfidentialDescriptor) : List SingleDescriptor :=
  c.head :: c.change.toList

/-- The derivation paths that belong to a script of this kind. -/
def derivationPaths (script : Script) (bip32Derivation : List (PublicKey × KeySource))
    (tapKeyOrigins : List KeySource) : List DerivationPath :=
  if script.isV1P2tr then tapKeyOrigins.map (·.2) else bip32Derivation.map (·.2.2)

/-- Whether one of the chains derives a script at an index. -/
def derivesAt (script : Script) (index : UInt32) : List SingleDescriptor → Except Error Bool
  | [] => .ok false
  | d :: rest => do
      let mine ← d.derive index
      if mine.1 = script then pure true else derivesAt script index rest

/-- `is_mine`: whether a chain derives the script at the end of one of the paths. -/
def isMine (c : ConfidentialDescriptor) (script : Script) : List DerivationPath → Except Error Bool
  | [] => .ok false
  | path :: paths =>
    match path.getLast? with
    | none => isMine c script paths
    | some wildcardIndex => do
        let mine ← derivesAt script wildcardIndex.toU32 c.singles
        if mine then pure true else isMine c script paths

/-- `is_mine` with `unwrap_or(false)`: what cannot be derived is not the wallet's. -/
def mine (c : ConfidentialDescriptor) (script : Script) (paths : List DerivationPath) : Bool :=
  (isMine c script paths).toOption.getD false

/-! ## The balance -/

structure PsetRecipient where
  address : Option Address
  asset : Option AssetId
  value : Option UInt64
  vout : Nat
deriving DecidableEq

inductive Reviewed
  | fee (asset : AssetId) (amount : UInt64)
  | recipient (r : PsetRecipient)
  | own (asset : AssetId) (amount : UInt64)
deriving DecidableEq

structure PsetBalance where
  fees : HashMap AssetId UInt64
  balances : HashMap AssetId Int64
  recipients : List PsetRecipient

section Review

variable (secp : Secp) (zkp : Zkp) (c : ConfidentialDescriptor)

/-- Asset and amount of a blinded input: as its proofs confirm or, in older PSETs without proofs,
as it opens with the wallet's key. -/
def openInput (i : FullInput) (idx : Nat) (txout : TxOut) (assetComm amountComm : Commitment) :
    Except CommonError (AssetId × UInt64) :=
  match i.blindAssetProof, i.blindValueProof, i.asset, i.amount with
  | some bap, some bvp, some asset, some value =>
    if !zkp.blindAssetProofVerify bap asset assetComm then .error (.invalidAssetBlindProof idx)
    else if !zkp.blindValueProofVerify bvp value assetComm amountComm then
      .error (.invalidValueBlindProof idx)
    else .ok (asset, value)
  | _, _, _, _ =>
    match c.blindingKey txout.scriptPubkey with
    | none => .error .missingPrivateBlindingKey
    | some key =>
      match secp.unblind { txout with rangeproof := i.inUtxoRangeproof } key with
      | none => .error (.inputMineNotUnblindable idx)
      | some secrets =>
        if (assetComm, amountComm) ≠ commitments zkp secrets then
          .error (.inputCommitmentsMismatch idx)
        else .ok (secrets.asset, secrets.value)

/-- What an input takes from the wallet, if it is the wallet's. -/
def reviewInput (i : FullInput) (idx : Nat) : Except CommonError (Option (AssetId × UInt64)) :=
  match i.witnessUtxo with
  | none => .error (.missingPreviousOutput idx i.previousOutput)
  | some txout =>
    if !mine c txout.scriptPubkey
        (derivationPaths txout.scriptPubkey i.bip32Derivation i.tapKeyOrigins) then .ok none
    else if i.isPegin then .error (.inputPeginUnsupported idx)
    else if i.hasIssuance && (i.assetIssuance.amount.isConfidential ||
        i.assetIssuance.inflationKeys.isConfidential) then .error (.inputBlindedIssuance idx)
    else
      match txout.asset, txout.value with
      | .confidential assetComm, .confidential amountComm =>
        (openInput secp zkp c i idx txout assetComm amountComm).map some
      | _, _ => .error (.inputNotBlinded idx)

/-- An output of the wallet must be blinded, with proofs, and the wallet must be able to open it. -/
def openOutput (o : FullOutput) (idx : Nat) (asset : AssetId) (amount : UInt64) :
    Except CommonError Reviewed :=
  match o.assetComm, o.blindAssetProof, o.amountComm, o.blindValueProof with
  | some assetComm, some bap, some amountComm, some bvp =>
    if !zkp.blindAssetProofVerify bap asset assetComm then .error (.invalidAssetBlindProof idx)
    else if !zkp.blindValueProofVerify bvp amount assetComm amountComm then
      .error (.invalidValueBlindProof idx)
    else
      match c.blindingKey o.scriptPubkey with
      | none => .error .missingPrivateBlindingKey
      | some key =>
        match secp.unblind o.toTxout key with
        | none => .error (.outputMineNotUnblindable idx)
        | some secrets =>
          if (assetComm, amountComm) ≠ commitments zkp secrets then
            .error (.outputCommitmentsMismatch idx)
          else .ok (.own asset amount)
  | _, _, _, _ => .error (.outputNotBlinded idx)

def PsetOutput.recipient (o : PsetOutput) (idx : Nat) : PsetRecipient where
  address := Address.fromScript o.scriptPubkey o.blindingKey
  asset := o.asset
  value := o.amount
  vout := idx

/-- What an output is: a fee, a payment to others or one to the wallet. The errors for a missing
asset and a missing amount are each named after the other. -/
def reviewOutput (o : FullOutput) (idx : Nat) : Except CommonError Reviewed :=
  if o.scriptPubkey.isEmpty then
    match o.asset, o.assetComm, o.amount, o.amountComm with
    | some asset, none, some amount, none => .ok (.fee asset amount)
    | _, _, _, _ => .error .blindedFee
  else if !mine c o.scriptPubkey
      (derivationPaths o.scriptPubkey o.bip32Derivation o.tapKeyOrigins) then
    .ok (.recipient (o.recipient idx))
  else
    match o.asset, o.amount with
    | none, none => .error (.outputAssetValueNone idx)
    | none, some _ => .error (.outputValueNone idx)
    | some _, none => .error (.outputAssetNone idx)
    | some asset, some amount => openOutput secp zkp c o idx asset amount

end Review

namespace Reviewed

def fee? : Reviewed → Option (AssetId × UInt64)
  | .fee asset amount => some (asset, amount)
  | _ => none

/-- The recipient of an output, if it is for others. -/
def recipient? : Reviewed → Option PsetRecipient
  | .recipient r => some r
  | _ => none

/-- The amount of an output, if it is for the wallet. -/
def own? : Reviewed → Option (AssetId × UInt64)
  | .own asset amount => some (asset, amount)
  | _ => none

end Reviewed

/-- Book what the inputs take and what the outputs are. Assets whose balance does not change are
left out. -/
def PsetBalance.book (spent : List (Option (AssetId × UInt64))) (reviewed : List Reviewed) :
    PsetBalance :=
  let balances := spent.reduceOption.foldl (fun (m : HashMap AssetId Int64) e =>
    m.entry e.1 0 (· - e.2.toInt64)) ∅
  let balances := (reviewed.filterMap Reviewed.own?).foldl (fun m e =>
    m.entry e.1 0 (· + e.2.toInt64)) balances
  { fees := (reviewed.filterMap Reviewed.fee?).foldl (fun m e => m.entry e.1 0 (· + e.2)) ∅
    balances := balances.retain fun _ v => v ≠ 0
    recipients := reviewed.filterMap Reviewed.recipient? }

def psetBalance (secp : Secp) (zkp : Zkp) (c : ConfidentialDescriptor) (d : FullPset) :
    Except CommonError PsetBalance := do
  let spent ← d.inputs.zipIdx.mapM fun e => reviewInput secp zkp c e.1 e.2
  let reviewed ← d.outputs.zipIdx.mapM fun e => reviewOutput secp zkp c e.1 e.2
  pure (.book spent reviewed)

/-! ## The details -/

structure PsetSignatures where
  hasSignature : List (PublicKey × KeySource)
  missingSignature : List (PublicKey × KeySource)

structure Issuance where
  asset : AssetId
  token : AssetId
  prevOutput : OutPoint
  inner : AssetIssuance

structure PsetDetails where
  balance : PsetBalance
  sigDetails : List PsetSignatures
  issuances : List Issuance

def psetSignatures (d : FullPset) : List PsetSignatures :=
  d.inputs.map fun i =>
    { hasSignature := i.bip32Derivation.filter fun e => e.1 ∈ i.partialSigs
      missingSignature := i.bip32Derivation.filter fun e => e.1 ∉ i.partialSigs }

def Issuance.new (h : IssuanceHash) (i : FullInput) : Issuance where
  asset := (i.fullIssuanceIds h).1
  token := (i.fullIssuanceIds h).2
  prevOutput := i.previousOutput
  inner := i.assetIssuance

def psetIssuances (h : IssuanceHash) (d : FullPset) : List Issuance := d.inputs.map (Issuance.new h)

inductive DetailsError
  | wollet (e : Error)
  | common (e : CommonError)
deriving DecidableEq

def WolletDescriptor.ctDescriptor (d : WolletDescriptor) : Except Error ConfidentialDescriptor :=
  match d.inner with
  | .desc c => .ok c
  | .spks _ => .error .unsupportedWithoutDescriptor

/-- `Wollet::get_details`. It depends on nothing of the wallet but its descriptor. -/
def getDetails (env : Env) (zkp : Zkp) (h : IssuanceHash) (d : FullPset) :
    Except DetailsError PsetDetails := do
  let c ← env.descriptor.ctDescriptor.mapError .wollet
  let balance ← (psetBalance env.secp zkp c d).mapError .common
  pure { balance := balance, sigDetails := psetSignatures d, issuances := psetIssuances h d }

end Swk
