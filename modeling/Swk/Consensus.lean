import Swk.ElementsCodec

/-!
# Transactions as consensus has them

`Transaction` of `rust-elements` with all its fields, as the `sequentia` feature builds it, and its
serialisation (`consensusEncode`). An asset issuance ends with a denomination byte, which is the
fork's.

Two more functions of a transaction read it field by field: the hash that a segwit signature is
over, and `scaled_size`, the formula for its size and weight. The hash leaves out the witnesses
(`segwitv0Sighash_congr`). The formula leaves out the denomination: it is short by one unit for
each issuance, and by nothing else (`scaledSize_add_issuances`).
-/

namespace Swk

open List

namespace Consensus

/-! ## Transactions -/

/-- `OutPoint`, with the index as it is written. -/
structure OutPoint where
  txid : Txid
  vout : UInt32
deriving DecidableEq

structure AssetIssuance where
  assetBlindingNonce : Tweak
  assetEntropy : BitVec 256
  amount : Value
  inflationKeys : Value
  denomination : UInt8
deriving DecidableEq

def isNull : Value → Bool
  | .null => true
  | _ => false

/-- `Value::is_confidential`. -/
def valueIsConfidential : Value → Bool
  | .confidential _ => true
  | _ => false

/-- `Nonce::is_confidential`. -/
def nonceIsConfidential : Nonce → Bool
  | .confidential _ => true
  | _ => false

namespace AssetIssuance

def null : AssetIssuance := ⟨.zero, 0, .null, .null, 8⟩

def isNull (i : AssetIssuance) : Bool :=
  Consensus.isNull i.amount && Consensus.isNull i.inflationKeys

end AssetIssuance

/-- `TxInWitness`. A proof is its bytes. -/
structure TxInWitness where
  amountRangeproof : Option Bytes
  inflationKeysRangeproof : Option Bytes
  scriptWitness : List Bytes
  peginWitness : List Bytes
deriving DecidableEq

namespace TxInWitness

def empty : TxInWitness := ⟨none, none, [], []⟩

def isEmpty (w : TxInWitness) : Bool :=
  w.amountRangeproof.isNone && w.inflationKeysRangeproof.isNone && w.scriptWitness.isEmpty &&
    w.peginWitness.isEmpty

end TxInWitness

structure TxIn where
  previousOutput : OutPoint
  isPegin : Bool
  scriptSig : Script
  sequence : UInt32
  assetIssuance : AssetIssuance
  witness : TxInWitness
deriving DecidableEq

def TxIn.hasIssuance (i : TxIn) : Bool := !i.assetIssuance.isNull

def TxIn.stripped (i : TxIn) : TxIn := { i with witness := .empty }

structure TxOutWitness where
  surjectionProof : Option Bytes
  rangeproof : Option Bytes
deriving DecidableEq

namespace TxOutWitness

def empty : TxOutWitness := ⟨none, none⟩

def isEmpty (w : TxOutWitness) : Bool := w.surjectionProof.isNone && w.rangeproof.isNone

end TxOutWitness

structure TxOut where
  asset : Asset
  value : Value
  nonce : Nonce
  scriptPubkey : Script
  witness : TxOutWitness
deriving DecidableEq

def TxOut.stripped (o : TxOut) : TxOut := { o with witness := .empty }

/-- `Transaction`. A lock time is the number it is written as. -/
structure Transaction where
  version : UInt32
  lockTime : UInt32
  input : List TxIn
  output : List TxOut
deriving DecidableEq

def Transaction.hasWitness (tx : Transaction) : Bool :=
  tx.input.any (!·.witness.isEmpty) || tx.output.any (!·.witness.isEmpty)

/-! ## Serialisation -/

/-- `consensus_encode_with_size`. -/
def encodeWithSize (data : Bytes) : Bytes := emitVarint (UInt64.ofNat data.length) ++ data

def encodeProof (proof : Option Bytes) : Bytes := encodeWithSize (proof.getD [])

def OutPoint.consensusEncode (o : OutPoint) : Bytes := emitHash o.txid ++ emitU32 o.vout

def encodeAsset : Asset → Bytes
  | .null => [0]
  | .explicit id => 1 :: emitHash id
  | .confidential generator => beBytes 33 generator.toNat

def encodeValue : Value → Bytes
  | .null => [0]
  | .explicit amount => 1 :: beBytes 8 amount.toNat
  | .confidential commitment => beBytes 33 commitment.toNat

/-- `PublicKey::serialize`. -/
def encodeKey (key : PublicKey) : Bytes := (if key.odd then 3 else 2) :: emitHash key.x

def encodeNonce : Nonce → Bytes
  | .null => [0]
  | .explicit bytes => 1 :: emitHash bytes
  | .confidential key => encodeKey key

def AssetIssuance.consensusEncode (i : AssetIssuance) : Bytes :=
  emitTweak i.assetBlindingNonce ++ emitHash i.assetEntropy ++ encodeValue i.amount ++
    encodeValue i.inflationKeys ++ emitU8 i.denomination

def TxInWitness.consensusEncode (w : TxInWitness) : Bytes :=
  encodeProof w.amountRangeproof ++ encodeProof w.inflationKeysRangeproof ++
    emitList encodeWithSize w.scriptWitness ++ emitList encodeWithSize w.peginWitness

/-- The flag of a peg-in, in the index of the output it spends. -/
def peginFlag : UInt32 := (1 : UInt32) <<< 30

def issuanceFlag : UInt32 := (1 : UInt32) <<< 31

/-- The index of the spent output with its flags. -/
def TxIn.flaggedVout (i : TxIn) : UInt32 :=
  i.previousOutput.vout ||| (if i.isPegin then peginFlag else 0) |||
    (if i.hasIssuance then issuanceFlag else 0)

def TxIn.consensusEncode (i : TxIn) : Bytes :=
  emitHash i.previousOutput.txid ++ emitU32 i.flaggedVout ++ encodeWithSize i.scriptSig ++
    emitU32 i.sequence ++ if i.hasIssuance then i.assetIssuance.consensusEncode else []

def TxOutWitness.consensusEncode (w : TxOutWitness) : Bytes :=
  encodeProof w.surjectionProof ++ encodeProof w.rangeproof

def TxOut.consensusEncode (o : TxOut) : Bytes :=
  encodeAsset o.asset ++ encodeValue o.value ++ encodeNonce o.nonce ++ encodeWithSize o.scriptPubkey

namespace Transaction

variable (tx : Transaction)

/-- A transaction up to its witnesses, behind a witness flag. -/
def encodeBase (flag : UInt8) : Bytes :=
  emitU32 tx.version ++ emitU8 flag ++ emitList TxIn.consensusEncode tx.input ++
    emitList TxOut.consensusEncode tx.output ++ emitU32 tx.lockTime

def encodeWitnesses : Bytes :=
  tx.input.flatMap (·.witness.consensusEncode) ++ tx.output.flatMap (·.witness.consensusEncode)

def consensusEncode : Bytes :=
  if tx.hasWitness then tx.encodeBase 1 ++ tx.encodeWitnesses else tx.encodeBase 0

/-- `Transaction::txid`, for the double hash of `Txid::engine`. -/
def txid (hash : Bytes → Txid) (tx : Transaction) : Txid := hash (tx.encodeBase 0)

def stripped : Transaction :=
  { tx with
    input := tx.input.map TxIn.stripped
    output := tx.output.map TxOut.stripped }

end Transaction

/-! ## Signature hashes -/

variable (sha256 : Bytes → BitVec 256)

def sha256d (data : Bytes) : BitVec 256 :=
  sha256 (emitHash (sha256 data))

/-- `encode_segwitv0_signing_data_to` for `SIGHASH_ALL`, of the input that is signed. -/
def segwitv0SigningData (tx : Transaction) (txin : TxIn) (scriptCode : Script)
    (value : Value) : Bytes :=
  emitU32 tx.version ++
    emitHash (sha256d sha256 (tx.input.flatMap (·.previousOutput.consensusEncode))) ++
    emitHash (sha256d sha256 (tx.input.flatMap fun i => emitU32 i.sequence)) ++
    emitHash (sha256d sha256 (tx.input.flatMap fun i =>
      if i.hasIssuance then i.assetIssuance.consensusEncode else emitU8 0)) ++
    txin.previousOutput.consensusEncode ++ encodeWithSize scriptCode ++ encodeValue value ++
    emitU32 txin.sequence ++
    (if txin.hasIssuance then txin.assetIssuance.consensusEncode else []) ++
    emitHash (sha256d sha256 (tx.output.flatMap TxOut.consensusEncode)) ++ emitU32 tx.lockTime ++
    emitU32 1

/-- `segwitv0_sighash` for `SIGHASH_ALL`. -/
def segwitv0Sighash (tx : Transaction) (inputIndex : Fin tx.input.length) (scriptCode : Script)
    (value : Value) : BitVec 256 :=
  sha256d sha256 (segwitv0SigningData sha256 tx (tx.input.get inputIndex) scriptCode value)

/-! ## Sizes -/

/-- `VarInt::size`. -/
def varIntSize (v : UInt64) : Nat :=
  if v.toNat ≤ 0xfc then 1
  else if v.toNat ≤ 0xffff then 3
  else if v.toNat ≤ 0xffffffff then 5
  else 9

/-- The bytes of a length and of what is that long. -/
def sizedLength (len : Nat) : Nat := varIntSize (UInt64.ofNat len) + len

/-- The length of a proof, or 0: `rangeproof_len` and `surjectionproof_len`. -/
def proofLen (proof : Option Bytes) : Nat := (proof.map List.length).getD 0

def stackSize (stack : List Bytes) : Nat :=
  varIntSize (UInt64.ofNat stack.length) + (stack.map fun wit => sizedLength wit.length).sum

/-- `Asset::encoded_length`. -/
def assetLength : Asset → Nat
  | .null => 1
  | .explicit _ => 33
  | .confidential _ => 33

/-- `Value::encoded_length`. -/
def valueLength : Value → Nat
  | .null => 1
  | .explicit _ => 9
  | .confidential _ => 33

/-- `Nonce::encoded_length`. -/
def nonceLength : Nonce → Nat
  | .null => 1
  | .explicit _ => 33
  | .confidential _ => 33

namespace TxIn

/-- An input in `scaled_size`, without its witness. -/
def baseSize (i : TxIn) : Nat :=
  32 + 4 + 4 + sizedLength i.scriptSig.length +
    if i.hasIssuance then
      64 + valueLength i.assetIssuance.amount + valueLength i.assetIssuance.inflationKeys
    else 0

/-- The witness of an input in `scaled_size`. -/
def witnessSize (i : TxIn) : Nat :=
  sizedLength (proofLen i.witness.amountRangeproof) +
    sizedLength (proofLen i.witness.inflationKeysRangeproof) + stackSize i.witness.scriptWitness +
    stackSize i.witness.peginWitness

end TxIn

namespace TxOut

/-- An output in `scaled_size`, without its witness. -/
def baseSize (o : TxOut) : Nat :=
  assetLength o.asset + valueLength o.value + nonceLength o.nonce +
    sizedLength o.scriptPubkey.length

/-- The witness of an output in `scaled_size`. -/
def witnessSize (o : TxOut) : Nat :=
  sizedLength (proofLen o.witness.surjectionProof) + sizedLength (proofLen o.witness.rangeproof)

/-- What `discount_weight` takes off for an output. -/
def discount (o : TxOut) : Nat :=
  (o.witnessSize - 2) + (if valueIsConfidential o.value then (33 - 9) * 4 else 0) +
    if nonceIsConfidential o.nonce then (33 - 1) * 4 else 0

end TxOut

namespace Transaction

variable (tx : Transaction)

def scaledSize (scaleFactor : Nat) : Nat :=
  let witnessFlag := tx.hasWitness
  let inputWeight := (tx.input.map fun i =>
    scaleFactor * i.baseSize + if witnessFlag then i.witnessSize else 0).sum
  let outputWeight := (tx.output.map fun o =>
    scaleFactor * o.baseSize + if witnessFlag then o.witnessSize else 0).sum
  scaleFactor * (4 + 4 + varIntSize (UInt64.ofNat tx.input.length) +
    varIntSize (UInt64.ofNat tx.output.length) + 1) + inputWeight + outputWeight

def size : Nat := tx.scaledSize 1

def weight : Nat := tx.scaledSize 4

def discountWeight : Nat :=
  tx.output.foldl (fun weight o => weight - o.discount) (tx.scaledSize 4)

def issuances : Nat := tx.input.countP (·.hasIssuance)

end Transaction

/-! ## Lengths of encodings -/

@[simp] theorem length_beBytes (n v : Nat) : (beBytes n v).length = n := by simp [beBytes]

@[simp] theorem length_emitHash (h : BitVec 256) : (emitHash h).length = 32 := length_beBytes 32 _

@[simp] theorem length_emitU32 (v : UInt32) : (emitU32 v).length = 4 := length_leBytes 4 _

@[simp] theorem length_emitU8 (v : UInt8) : (emitU8 v).length = 1 := length_leBytes 1 _

@[simp] theorem length_emitTweak (t : Tweak) : (emitTweak t).length = 32 := length_beBytes 32 _

@[simp] theorem length_emitVarint (v : UInt64) : (emitVarint v).length = varIntSize v := by
  unfold emitVarint varIntSize
  split_ifs <;> simp

@[simp] theorem length_encodeWithSize (data : Bytes) :
    (encodeWithSize data).length = sizedLength data.length := by
  simp [encodeWithSize, sizedLength]

@[simp] theorem length_encodeProof (proof : Option Bytes) :
    (encodeProof proof).length = sizedLength (proofLen proof) := by
  cases proof <;> simp [encodeProof, proofLen]

@[simp] theorem length_encodeAsset (a : Asset) : (encodeAsset a).length = assetLength a := by
  cases a <;> simp [encodeAsset, assetLength]

@[simp] theorem length_encodeValue (v : Value) : (encodeValue v).length = valueLength v := by
  cases v <;> simp [encodeValue, valueLength]

@[simp] theorem length_encodeNonce (n : Nonce) : (encodeNonce n).length = nonceLength n := by
  cases n <;> simp [encodeNonce, nonceLength, encodeKey]

theorem length_emitList {α : Type} (enc : α → Bytes) (l : List α) : (emitList enc l).length =
      varIntSize (UInt64.ofNat l.length) + (l.map fun a => (enc a).length).sum := by
  simp [emitList, length_flatMap]

@[simp] theorem length_stack (stack : List Bytes) :
    (emitList encodeWithSize stack).length = stackSize stack := by
  simp [length_emitList, stackSize]

theorem TxIn.length_consensusEncode (i : TxIn) :
    i.consensusEncode.length = i.baseSize + if i.hasIssuance then 1 else 0 := by
  unfold TxIn.consensusEncode TxIn.baseSize
  split_ifs <;> simp [AssetIssuance.consensusEncode] <;> omega

theorem TxIn.length_witness (i : TxIn) : i.witness.consensusEncode.length = i.witnessSize := by
  simp [TxInWitness.consensusEncode, TxIn.witnessSize, Nat.add_assoc]

theorem TxOut.length_consensusEncode (o : TxOut) : o.consensusEncode.length = o.baseSize := by
  simp [TxOut.consensusEncode, TxOut.baseSize, Nat.add_assoc]

theorem TxOut.length_witness (o : TxOut) : o.witness.consensusEncode.length = o.witnessSize := by
  simp [TxOutWitness.consensusEncode, TxOut.witnessSize]

namespace Transaction

variable (tx : Transaction)

/-- What `scaled_size` scales, without its issuances' denominations. -/
def baseSize : Nat :=
  4 + 4 + varIntSize (UInt64.ofNat tx.input.length) + varIntSize (UInt64.ofNat tx.output.length) +
    1 + (tx.input.map TxIn.baseSize).sum + (tx.output.map TxOut.baseSize).sum

/-- What `scaled_size` does not scale. -/
def witnessSize : Nat :=
  if tx.hasWitness then
    (tx.input.map TxIn.witnessSize).sum + (tx.output.map TxOut.witnessSize).sum
  else 0

theorem sum_scaled {α : Type} (k : Nat) (flag : Bool) (base witness : α → Nat) (l : List α) :
    (l.map fun a => k * base a + if flag then witness a else 0).sum =
      k * (l.map base).sum + if flag then (l.map witness).sum else 0 := by
  induction l with
  | nil => cases flag <;> rfl
  | cons a l ih =>
    simp only [map_cons, sum_cons, ih, Nat.mul_add]
    cases flag with
    | false => simp
    | true =>
      simp only [if_true]
      omega

theorem scaledSize_eq (k : Nat) : tx.scaledSize k = k * tx.baseSize + tx.witnessSize := by
  simp only [scaledSize, sum_scaled, baseSize, witnessSize, Nat.mul_add]
  split_ifs <;> omega

theorem length_encodeBase (flag : UInt8) :
    (tx.encodeBase flag).length = tx.baseSize + tx.issuances := by
  have hinputs (l : List TxIn) : (l.map fun i => i.consensusEncode.length).sum =
      (l.map TxIn.baseSize).sum + l.countP (·.hasIssuance) := by
    induction l with
    | nil => rfl
    | cons i l ih =>
      simp only [map_cons, sum_cons, ih, countP_cons, i.length_consensusEncode]
      omega
  have houtputs :
      (tx.output.map fun o => o.consensusEncode.length) = tx.output.map TxOut.baseSize :=
    map_congr_left fun o _ => o.length_consensusEncode
  simp only [encodeBase, length_append, length_emitU32, length_emitU8, length_emitList,
    hinputs, houtputs, baseSize, issuances]
  omega

theorem length_consensusEncode :
    tx.consensusEncode.length = tx.baseSize + tx.issuances + tx.witnessSize := by
  unfold consensusEncode witnessSize
  split_ifs
  · rw [length_append, length_encodeBase, encodeWitnesses, length_append,
      length_flatMap, length_flatMap]
    simp only [TxIn.length_witness, TxOut.length_witness]
  · rw [length_encodeBase, Nat.add_zero]

/-! ## Without witnesses -/

theorem hasWitness_stripped : tx.stripped.hasWitness = false := by
  simp [hasWitness, stripped, TxIn.stripped, TxOut.stripped, TxInWitness.isEmpty,
    TxInWitness.empty, TxOutWitness.isEmpty, TxOutWitness.empty]

theorem encodeBase_stripped (flag : UInt8) : tx.stripped.encodeBase flag = tx.encodeBase flag := by
  simp only [encodeBase, stripped, emitList, length_map, flatMap_map]
  rfl

theorem consensusEncode_stripped : tx.stripped.consensusEncode = tx.encodeBase 0 := by
  rw [consensusEncode, hasWitness_stripped, if_neg Bool.false_ne_true, encodeBase_stripped]

theorem segwitv0SigningData_stripped (sha256 : Bytes → BitVec 256) (tx : Transaction) (txin : TxIn)
    (scriptCode : Script) (value : Value) :
    segwitv0SigningData sha256 tx.stripped txin.stripped scriptCode value =
      segwitv0SigningData sha256 tx txin scriptCode value := by
  simp only [segwitv0SigningData, stripped, flatMap_map]
  rfl

/-- **Signature hashes do not depend on witnesses.** -/
theorem segwitv0Sighash_congr (sha256 : Bytes → BitVec 256) {tx tx' : Transaction}
    (h : tx.stripped = tx'.stripped) {inputIndex : Fin tx.input.length}
    {inputIndex' : Fin tx'.input.length} (hindex : inputIndex.val = inputIndex'.val)
    (scriptCode : Script) (value : Value) : segwitv0Sighash sha256 tx inputIndex scriptCode value =
      segwitv0Sighash sha256 tx' inputIndex' scriptCode value := by
  obtain ⟨k, hk⟩ := inputIndex
  obtain ⟨k', hk'⟩ := inputIndex'
  obtain rfl : k = k' := hindex
  have hinput : (tx.input.get ⟨k, hk⟩).stripped = (tx'.input.get ⟨k, hk'⟩).stripped := by
    have hget := congrArg (fun t : Transaction => t.input[k]?) h
    simp only [stripped, getElem?_map, getElem?_eq_getElem hk, getElem?_eq_getElem hk'] at hget
    exact Option.some.inj hget
  unfold segwitv0Sighash
  rw [← segwitv0SigningData_stripped, h, hinput, segwitv0SigningData_stripped]

/-- **The formula and the encoder.** With the issuances' denominations, the scaled size is the
serialisation without witness data, scaled, and the witnesses. -/
theorem scaledSize_add_issuances (k : Nat) : tx.scaledSize (k + 1) + (k + 1) * tx.issuances =
      k * tx.stripped.consensusEncode.length + tx.consensusEncode.length := by
  rw [scaledSize_eq, consensusEncode_stripped, length_encodeBase, length_consensusEncode]
  ring

theorem size_add_issuances : tx.size + tx.issuances = tx.consensusEncode.length := by
  simpa [size] using tx.scaledSize_add_issuances 0

end Transaction

end Consensus

end Swk
