import Mathlib.Data.Nat.Bitwise
import Swk.Codec
import Swk.Elements

/-!
# Codecs of the Elements types

What the wallet's own formats take from `rust-elements`: the fixed-width fields, byte for byte,
and a record of the codecs of whole Elements types (`Codecs`), each with the values it takes and the
law for those. The update format is parametric in that record. `Concrete.codecs` is one choice of
it, built from the combinators of `Swk.Codec`: it shows that the laws can be met, and concrete
wallets run on it.
-/

namespace Swk

/-- `elements::encode::Error`, as far as decoding an update raises it. -/
inductive DecodeError
  | io
  | parseFailed (msg : String)
  | nonMinimalVarInt
  | secp256k1
  | panicked (msg : String)
deriving DecidableEq

/-- What the update format takes from the Elements library and from secp256k1. The type of
transactions is a parameter, as the format does not look into them. -/
structure Codecs (T : Type := Transaction) where
  transaction : Codec DecodeError T
  blockHeader : Codec DecodeError BlockHeader
  takes_default : blockHeader.takes defaultBlockheader = true
  script : Codec DecodeError Script
  txid : T → Txid
  /-- Whether some curve point has this abscissa. -/
  onCurve : BitVec 256 → Bool

/-! ## Fixed-width fields -/

def readU8 : Parser DecodeError UInt8 := do
  let v ← readLe .io 1
  pure (UInt8.ofNat v)

def readU32 : Parser DecodeError UInt32 := do
  let v ← readLe .io 4
  pure (UInt32.ofNat v)

def readU64 : Parser DecodeError UInt64 := do
  let v ← readLe .io 8
  pure (UInt64.ofNat v)

def emitU8 (v : UInt8) : Bytes := leBytes 1 v.toNat

def emitU32 (v : UInt32) : Bytes := leBytes 4 v.toNat

def emitU64 (v : UInt64) : Bytes := leBytes 8 v.toNat

theorem decodes_readU8 (v : UInt8) : Decodes readU8 (emitU8 v) v := by
  have h := (decodes_readLe DecodeError.io (n := 1) (v := v.toNat) v.toNat_lt).map
    (f := UInt8.ofNat)
  rwa [UInt8.ofNat_toNat] at h

theorem decodes_readU32 (v : UInt32) : Decodes readU32 (emitU32 v) v := by
  have h := (decodes_readLe DecodeError.io (n := 4) (v := v.toNat) v.toNat_lt).map
    (f := UInt32.ofNat)
  rwa [UInt32.ofNat_toNat] at h

theorem decodes_readU64 (v : UInt64) : Decodes readU64 (emitU64 v) v := by
  have h := (decodes_readLe DecodeError.io (n := 8) (v := v.toNat) v.toNat_lt).map
    (f := UInt64.ofNat)
  rwa [UInt64.ofNat_toNat] at h

/-- A 32-byte hash, in its byte order. -/
def emitHash (h : BitVec 256) : Bytes := beBytes 32 h.toNat

def readHash : Parser DecodeError (BitVec 256) := do
  let v ← readBe .io 32
  pure (BitVec.ofNat 256 v)

theorem decodes_readHash (h : BitVec 256) : Decodes readHash (emitHash h) h := by
  have hlt : h.toNat < 256 ^ 32 := by
    have := h.isLt
    omega
  have hread := (decodes_readBe DecodeError.io hlt).map (f := BitVec.ofNat 256)
  rwa [BitVec.ofNat_toNat, BitVec.setWidth_eq] at hread

/-- A blinding factor as 32 bytes. -/
def emitTweak (t : Tweak) : Bytes := beBytes 32 t.val

/-- `from_slice(..).expect(..)`: bytes of a number past the group order panic. -/
def readTweak : Parser DecodeError Tweak := do
  let v ← readBe .io 32
  if h : v < curveOrder then pure ⟨v, h⟩ else throw (.panicked "bytes length is 32")

theorem decodes_readTweak (t : Tweak) : Decodes readTweak (emitTweak t) t := by
  have hlt : t.val < 256 ^ 32 := lt_trans t.lt (by decide)
  refine (decodes_readBe DecodeError.io hlt).bind_nil ?_
  rw [dif_pos t.lt]
  exact .pure t

/-- The 36 bytes of an `OutPoint`, whose index is a `u32`. -/
def emitOutPoint (o : OutPoint) : Bytes := emitHash o.txid ++ emitU32 (UInt32.ofNat o.vout)

def readOutPoint : Parser DecodeError OutPoint := do
  let txid ← readHash
  let vout ← readU32
  pure ⟨txid, vout.toNat⟩

theorem decodes_readOutPoint {o : OutPoint} (h : o.vout < 2 ^ 32) :
    Decodes readOutPoint (emitOutPoint o) o := by
  have hread := (decodes_readHash o.txid).bind (f := fun txid => do
      let vout ← readU32
      pure (OutPoint.mk txid vout.toNat)) (decodes_readU32 (UInt32.ofNat o.vout)).map
  rwa [UInt32.toNat_ofNat_of_lt' h] at hread

/-! ## A concrete choice -/

namespace Concrete

def byteCodec : Codec DecodeError UInt8 := .total emitU8 readU8 decodes_readU8

def u32Codec : Codec DecodeError UInt32 := .total emitU32 readU32 decodes_readU32

def u64Codec : Codec DecodeError UInt64 := .total emitU64 readU64 decodes_readU64

def hashCodec : Codec DecodeError (BitVec 256) := .total emitHash readHash decodes_readHash

def commitmentCodec : Codec DecodeError Commitment := Codec.word .io 33

def tweakCodec : Codec DecodeError Tweak := .total emitTweak readTweak decodes_readTweak

def vecCodec {α : Type} (c : Codec DecodeError α) : Codec DecodeError (List α) :=
  Codec.list .io c .nonMinimalVarInt

def bytesCodec : Codec DecodeError (List UInt8) := vecCodec byteCodec

def optionCodec {α : Type} (c : Codec DecodeError α) : Codec DecodeError (Option α) :=
  (Codec.either .io Codec.unit c).iso (fun o => match o with
      | none => .inl ()
      | some a => .inr a)
    (fun s => match s with
      | .inl _ => none
      | .inr a => some a)
    (fun o => by cases o <;> rfl)

def publicKeyCodec : Codec DecodeError PublicKey :=
  (Codec.pair (Codec.either .io Codec.unit Codec.unit) hashCodec).iso
    (fun k => (if k.odd then .inr () else .inl (), k.x))
    (fun p => ⟨p.1.isRight, p.2⟩)
    (fun k => by obtain ⟨odd, x⟩ := k; cases odd <;> rfl)

def outPointCodec : Codec DecodeError OutPoint where
  encode := emitOutPoint
  decode := readOutPoint
  takes o := decide (o.vout < 2 ^ 32)
  decodes _ h := decodes_readOutPoint (decide_eq_true_iff.1 h)

def assetCodec : Codec DecodeError Asset :=
  (optionCodec (Codec.either .io hashCodec commitmentCodec)).iso (fun a => match a with
      | .null => none
      | .explicit id => some (.inl id)
      | .confidential g => some (.inr g))
    (fun o => match o with
      | none => .null
      | some (.inl id) => .explicit id
      | some (.inr g) => .confidential g)
    (fun a => by cases a <;> rfl)

def valueCodec : Codec DecodeError Value :=
  (optionCodec (Codec.either .io u64Codec commitmentCodec)).iso (fun v => match v with
      | .null => none
      | .explicit amount => some (.inl amount)
      | .confidential c => some (.inr c))
    (fun o => match o with
      | none => .null
      | some (.inl amount) => .explicit amount
      | some (.inr c) => .confidential c)
    (fun v => by cases v <;> rfl)

def nonceCodec : Codec DecodeError Nonce :=
  (optionCodec (Codec.either .io hashCodec publicKeyCodec)).iso (fun n => match n with
      | .null => none
      | .explicit bytes => some (.inl bytes)
      | .confidential key => some (.inr key))
    (fun o => match o with
      | none => .null
      | some (.inl bytes) => .explicit bytes
      | some (.inr key) => .confidential key)
    (fun n => by cases n <;> rfl)

def issuanceCodec : Codec DecodeError AssetIssuance :=
  (Codec.pair tweakCodec (Codec.pair hashCodec (Codec.pair valueCodec valueCodec))).iso
    (fun i => (i.assetBlindingNonce, i.assetEntropy, i.amount, i.inflationKeys))
    (fun p => ⟨p.1, p.2.1, p.2.2.1, p.2.2.2⟩) (fun _ => rfl)

def txInCodec : Codec DecodeError TxIn :=
  (Codec.pair outPointCodec issuanceCodec).iso
    (fun i => (i.previousOutput, i.assetIssuance)) (fun p => ⟨p.1, p.2⟩) (fun _ => rfl)

def txOutCodec : Codec DecodeError TxOut :=
  (Codec.pair assetCodec (Codec.pair valueCodec (Codec.pair nonceCodec
    (Codec.pair bytesCodec (optionCodec bytesCodec))))).iso
    (fun o => (o.asset, o.value, o.nonce, o.scriptPubkey, o.rangeproof))
    (fun p => ⟨p.1, p.2.1, p.2.2.1, p.2.2.2.1, p.2.2.2.2⟩) (fun _ => rfl)

def transactionCodec : Codec DecodeError Transaction :=
  (Codec.pair (vecCodec txInCodec) (vecCodec txOutCodec)).iso
    (fun t => (t.input, t.output)) (fun p => ⟨p.1, p.2⟩) (fun _ => rfl)

def fullParamsCodec : Codec DecodeError FullParams :=
  (Codec.pair bytesCodec (Codec.pair u32Codec (Codec.pair bytesCodec
    (Codec.pair bytesCodec (vecCodec bytesCodec))))).iso
    (fun f => (f.signblockscript, f.signblockWitnessLimit, f.fedpegProgram, f.fedpegscript,
      f.extensionSpace))
    (fun p => ⟨p.1, p.2.1, p.2.2.1, p.2.2.2.1, p.2.2.2.2⟩) (fun _ => rfl)

def paramsCodec : Codec DecodeError Params :=
  (optionCodec (Codec.either .io (Codec.pair bytesCodec (Codec.pair u32Codec hashCodec))
    fullParamsCodec)).iso
    (fun p => match p with
      | .null => none
      | .compact script limit root => some (.inl (script, limit, root))
      | .full params => some (.inr params))
    (fun o => match o with
      | none => .null
      | some (.inl c) => .compact c.1 c.2.1 c.2.2
      | some (.inr params) => .full params)
    (fun p => by cases p <;> rfl)

def extDataCodec : Codec DecodeError BlockExtData :=
  (Codec.either .io (Codec.pair bytesCodec bytesCodec)
    (Codec.pair paramsCodec (Codec.pair paramsCodec (vecCodec bytesCodec)))).iso
    (fun e => match e with
      | .proof challenge solution => .inl (challenge, solution)
      | .dynafed current proposed witness => .inr (current, proposed, witness))
    (fun s => match s with
      | .inl p => .proof p.1 p.2
      | .inr d => .dynafed d.1 d.2.1 d.2.2)
    (fun e => by cases e <;> rfl)

def blockHeaderCodec : Codec DecodeError BlockHeader :=
  (Codec.pair u32Codec (Codec.pair hashCodec (Codec.pair hashCodec (Codec.pair u32Codec
    (Codec.pair u32Codec (Codec.pair extDataCodec
      (optionCodec (Codec.pair u32Codec hashCodec)))))))).iso
    (fun b => (b.version, b.prevBlockhash, b.merkleRoot, b.time, b.height, b.ext, b.bitcoinAnchor))
    (fun p => ⟨p.1, p.2.1, p.2.2.1, p.2.2.2.1, p.2.2.2.2.1, p.2.2.2.2.2.1, p.2.2.2.2.2.2⟩)
    (fun _ => rfl)

/-- Lawful codecs for a given `txid`, on a curve that every abscissa is on. -/
def codecs (txid : Transaction → Txid) : Codecs where
  transaction := transactionCodec
  blockHeader := blockHeaderCodec
  takes_default := by decide
  script := bytesCodec
  txid := txid
  onCurve := fun _ => true

end Concrete

end Swk
