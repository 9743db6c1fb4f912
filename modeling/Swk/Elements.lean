import Mathlib.Data.Finset.Dedup

/-!
# Elements data

The chain data the wallet reads, following `rust-elements`: identifiers, scripts, confidential
fields, transactions and block headers. Hashes, keys and commitments are their bytes. Of a
transaction only what the wallet looks at is kept: what an input spends and issues, and an
output's asset, value, nonce, script and range proof. The range proof is witness data, so a
txid does not commit to it (`Transaction.stripped`).
-/

namespace Swk

/-! ## Identifiers -/

/-- A transaction id. `Ord` on the byte array is the order of the number it writes. -/
abbrev Txid := BitVec 256

abbrev AssetId := BitVec 256

/-- Identifiers in a list are found by comparing them. -/
instance instLawfulBEqHash : LawfulBEq (BitVec 256) := inferInstance

abbrev BlockHash := BitVec 256

/-- A 33-byte commitment: a blinded asset or value. -/
abbrev Commitment := BitVec 264

abbrev SecretKey := BitVec 256

/-- A compressed secp256k1 public key: the parity of its ordinate and its abscissa. -/
structure PublicKey where
  odd : Bool
  x : BitVec 256
deriving DecidableEq

abbrev Script := List UInt8

abbrev Height := UInt32

abbrev Timestamp := UInt32

/-- A reference to a transaction output. The source holds `vout` as a `u32`; no transaction has
as many outputs. -/
structure OutPoint where
  txid : Txid
  vout : Nat
deriving DecidableEq

/-- The order of the secp256k1 group: a blinding factor is a number below it. -/
def curveOrder : Nat :=
  0xFFFFFFFFFFFFFFFFFFFFFFFFFFFFFFFEBAAEDCE6AF48A03BBFD25E8CD0364141

/-- A blinding factor. Zero is allowed: it is the factor of an explicit amount or asset. -/
structure Tweak where
  val : Nat
  lt : val < curveOrder
deriving DecidableEq

/-- `ZERO_TWEAK`. -/
def Tweak.zero : Tweak := ⟨0, by decide⟩

def Tweak.one : Tweak := ⟨1, by decide⟩

/-! ## Scripts and addresses -/

namespace Script

variable (s : Script)

def isP2pkh : Bool :=
  s.length == 25 && s[0]? == some 0x76 && s[1]? == some 0xa9 && s[2]? == some 0x14
    && s[23]? == some 0x88 && s[24]? == some 0xac

def isP2sh : Bool :=
  s.length == 23 && s[0]? == some 0xa9 && s[1]? == some 0x14 && s[22]? == some 0x87

def isV0P2wpkh : Bool :=
  s.length == 22 && s[0]? == some 0x00 && s[1]? == some 0x14

def isV0P2wsh : Bool :=
  s.length == 34 && s[0]? == some 0x00 && s[1]? == some 0x20

def isV1plusP2witprog : Bool :=
  match s with
  | op :: len :: _ => s.length == len.toNat + 2 && 0x51 ≤ op && op ≤ 0x60 && len ≤ 0x28
  | _ => false

end Script

/-- An address: the script it pays and, when it is confidential, the key to blind for. -/
structure Address where
  scriptPubkey : Script
  blindingPubkey : Option PublicKey
deriving DecidableEq

/-- `Address::from_script`: only the standard script shapes have an address. -/
def Address.fromScript (script : Script) (blinder : Option PublicKey) : Option Address :=
  if script.isP2pkh || script.isP2sh || script.isV0P2wpkh || script.isV0P2wsh
      || script.isV1plusP2witprog then
    some ⟨script, blinder⟩
  else none

/-! ## Transactions -/

inductive Asset
  | null
  | explicit (id : AssetId)
  | confidential (generator : Commitment)
deriving DecidableEq

inductive Value
  | null
  | explicit (amount : UInt64)
  | confidential (commitment : Commitment)
deriving DecidableEq

inductive Nonce
  | null
  | explicit (bytes : BitVec 256)
  | confidential (key : PublicKey)
deriving DecidableEq

/-- `Asset::explicit`. -/
def Asset.explicit? : Asset → Option AssetId
  | .explicit id => some id
  | _ => none

/-- `Value::explicit`. -/
def Value.explicit? : Value → Option UInt64
  | .explicit v => some v
  | _ => none

/-- The issuance an input carries; all-null when it issues nothing. -/
structure AssetIssuance where
  assetBlindingNonce : Tweak
  assetEntropy : BitVec 256
  amount : Value
  inflationKeys : Value
deriving DecidableEq

def AssetIssuance.null : AssetIssuance := ⟨.zero, 0, .null, .null⟩

structure TxIn where
  previousOutput : OutPoint
  assetIssuance : AssetIssuance
deriving DecidableEq

/-- A transaction output, with the range proof of its witness. -/
structure TxOut where
  asset : Asset
  value : Value
  nonce : Nonce
  scriptPubkey : Script
  rangeproof : Option (List UInt8)
deriving DecidableEq

structure Transaction where
  input : List TxIn
  output : List TxOut
deriving DecidableEq

namespace Transaction

variable (tx : Transaction)

def spends : List OutPoint := tx.input.map (·.previousOutput)

def scriptAt (vout : Nat) : Option Script :=
  (tx.output[vout]?).map (·.scriptPubkey)

/-- The transaction without its witness: what the txid commits to. -/
def stripped : Transaction :=
  { tx with output := tx.output.map fun o => { o with rangeproof := none } }

theorem spends_eq_of_stripped {tx tx' : Transaction} (h : tx.stripped = tx'.stripped) :
    tx.spends = tx'.spends := by
  have hin : tx.stripped.input = tx'.stripped.input := congrArg Transaction.input h
  exact congrArg (List.map (·.previousOutput)) hin

theorem scriptAt_stripped (vout : Nat) : tx.stripped.scriptAt vout = tx.scriptAt vout := by
  simp only [scriptAt, stripped, List.getElem?_map, Option.map_map]
  rfl

theorem scriptAt_eq_of_stripped {tx tx' : Transaction} (h : tx.stripped = tx'.stripped)
    (vout : Nat) : tx.scriptAt vout = tx'.scriptAt vout := by
  rw [← scriptAt_stripped tx, ← scriptAt_stripped tx', h]

end Transaction

/-- The opening of an output: its asset and value with their blinding factors. -/
structure TxOutSecrets where
  asset : AssetId
  assetBf : Tweak
  value : UInt64
  valueBf : Tweak
deriving DecidableEq

/-! ## Block headers -/

structure FullParams where
  signblockscript : Script
  signblockWitnessLimit : UInt32
  fedpegProgram : Script
  fedpegscript : List UInt8
  extensionSpace : List (List UInt8)
deriving DecidableEq

inductive Params
  | null
  | compact (signblockscript : Script) (signblockWitnessLimit : UInt32) (elidedRoot : BitVec 256)
  | full (params : FullParams)
deriving DecidableEq

/-- `BlockExtData`: block signature and federation data. -/
inductive BlockExtData
  | proof (challenge solution : Script)
  | dynafed (current proposed : Params) (signblockWitness : List (List UInt8))
deriving DecidableEq

/-- An Elements block header with its Bitcoin anchor. -/
structure BlockHeader where
  version : UInt32
  prevBlockhash : BlockHash
  merkleRoot : BitVec 256
  time : UInt32
  height : Height
  ext : BlockExtData
  bitcoinAnchor : Option (UInt32 × BlockHash)
deriving DecidableEq

/-- `default_blockheader`: as the tip of an update it means "leave the tip alone". -/
def defaultBlockheader : BlockHeader where
  version := 0
  prevBlockhash := 0
  merkleRoot := 0
  time := 0
  height := 0
  ext := .dynafed .null .null []
  bitcoinAnchor := some (0, 0)

/-! ## Derivation -/

/-- The chain a script belongs to: receiving or change. -/
inductive Chain
  | external
  | internal
deriving DecidableEq

inductive ChildNumber
  | normal (index : UInt32)
  | hardened (index : UInt32)
deriving DecidableEq

/-- `u32::from(ChildNumber)`: hardened numbers have the top bit set. -/
def ChildNumber.toU32 : ChildNumber → UInt32
  | .normal index => index
  | .hardened index => index ||| 0x80000000

/-- `ChildNumber::from(u32)`. -/
def ChildNumber.ofU32 (n : UInt32) : ChildNumber :=
  if n &&& 0x80000000 == 0 then .normal n else .hardened (n ^^^ 0x80000000)

end Swk
