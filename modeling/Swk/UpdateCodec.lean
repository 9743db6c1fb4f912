import Swk.ElementsCodec
import Swk.Update

/-!
# The update format

`Update::consensus_encode` and `consensus_decode`, byte for byte. Five versions share one
encoder: the wallet status appears from version 1, blinding keys from 2, the unspent outputs
from 3 and the last unused indexes from 4. An unconfirmed height is written as `u32::MAX`, a
missing blinding key as 33 zero bytes, and txids are recomputed from the transactions.

The codecs of the Elements types are parameters (`Codecs`) that carry their law; everything the
update format adds on top of them is here. The main result is that decoding an encoded update
returns it and stops at its last byte (`decodes_update`), for every version.
-/

namespace Swk

/-! ## Blinding keys -/

/-- `PublicKey::serialize`. -/
def emitPublicKey (k : PublicKey) : Bytes :=
  emitU8 (if k.odd then 3 else 2) ++ emitHash k.x

variable {T : Type} (c : Codecs T)

/-- `PublicKey::from_slice` on the 33 bytes read, where all zeros stand for no key. -/
def readBlindingPubkey : Parser DecodeError (Option PublicKey) := do
  let tag ← readU8
  let x ← readHash
  if tag = 0 ∧ x = 0 then pure none
  else if (tag = 2 ∨ tag = 3) ∧ c.onCurve x then pure (some ⟨tag = 3, x⟩)
  else throw .secp256k1

def emitBlindingPubkey : Option PublicKey → Bytes
  | some k => emitPublicKey k
  | none => emitU8 0 ++ emitHash 0

theorem decodes_readBlindingPubkey (k : Option PublicKey) (hk : ∀ key ∈ k, c.onCurve key.x = true) :
    Decodes (readBlindingPubkey c) (emitBlindingPubkey k) k := by
  cases k with
  | none =>
    refine (decodes_readU8 0).bind ((decodes_readHash 0).bind_nil ?_)
    exact .pure none
  | some key =>
    refine (decodes_readU8 _).bind ((decodes_readHash key.x).bind_nil ?_)
    have hx : c.onCurve key.x = true := hk key rfl
    obtain ⟨odd, x⟩ := key
    cases odd with
    | false | true =>
      rw [if_neg (by simp), if_pos ⟨by simp, hx⟩]
      exact .pure _

/-! ## The encoder -/

/-- A field that the format has from version `least` on. -/
def emitFrom (least version : UInt8) (bytes : Bytes) : Bytes :=
  if least ≤ version then bytes else []

/-- `EncodableTxOutSecrets`. -/
def emitTxOutSecrets (s : TxOutSecrets) : Bytes :=
  emitHash s.asset ++ (emitTweak s.assetBf ++ (emitU64 s.value ++ emitTweak s.valueBf))

def emitUnblind (e : OutPoint × TxOutSecrets) : Bytes :=
  emitOutPoint e.1 ++ emitTxOutSecrets e.2

/-- Txids are not written, since they are re-computable from the transactions. -/
def emitDownloadTxResult (r : DownloadTxResult T) : Bytes :=
  emitList (fun e => c.transaction.encode e.2) r.txs ++ emitList emitUnblind r.unblinds

/-- An unconfirmed height is written as `u32::MAX`. -/
def emitHeight (e : Txid × Option Height) : Bytes :=
  emitHash e.1 ++ emitU32 (e.2.getD 0xffffffff)

def emitTimestamp (e : Height × Timestamp) : Bytes := emitU32 e.1 ++ emitU32 e.2

def emitChain : Chain → Bytes
  | .external => emitU8 0
  | .internal => emitU8 1

def emitScriptEntry (version : UInt8) (e : ScriptEntry) : Bytes :=
  c.script.encode e.2.2.1 ++ (emitChain e.1 ++ (emitU32 e.2.1.toU32 ++
    emitFrom 2 version (emitBlindingPubkey e.2.2.2)))

def updateMagicBytes : Bytes := [0x89, 0x61, 0xb8, 0xc8]

def Update.serialize (u : Update T) : Bytes :=
  updateMagicBytes ++ (emitU8 u.version ++ (emitFrom 1 u.version (emitU64 u.wolletStatus) ++
    (emitDownloadTxResult c u.newTxs ++
    (emitList emitHeight u.txidHeightNew ++
    (emitList emitHash u.txidHeightDelete ++
    (emitList emitTimestamp u.timestamps ++
    (emitList (emitScriptEntry c u.version) u.scriptsWithBlindingPubkey ++
    (c.blockHeader.encode u.tip ++
    (emitFrom 3 u.version (emitList emitOutPoint u.unspent) ++
    emitFrom 4 u.version (emitU32 u.lastUnused.external ++ emitU32 u.lastUnused.internal))))))))))

/-! ## The decoder -/

/-- Raise a parse error unless a condition holds. -/
def ensure (ok : Bool) (msg : String) : Parser DecodeError Unit :=
  if ok then pure () else throw (.parseFailed msg)

/-- Read a field present from version `least` on; before, it has its default. -/
def readFrom {α : Type} (least version : UInt8) (p : Parser DecodeError α) (default : α) :
    Parser DecodeError α :=
  if least ≤ version then p else pure default

/-- The loops of the format: a varint and as many elements. -/
def readVec {α : Type} (p : Parser DecodeError α) : Parser DecodeError (List α) :=
  readList .io .nonMinimalVarInt p

def readTxOutSecrets : Parser DecodeError TxOutSecrets := do
  let asset ← readHash
  let assetBf ← readTweak
  let value ← readU64
  let valueBf ← readTweak
  pure ⟨asset, assetBf, value, valueBf⟩

def readUnblind : Parser DecodeError (OutPoint × TxOutSecrets) := do
  let outPoint ← readOutPoint
  let secrets ← readTxOutSecrets
  pure (outPoint, secrets)

def readTx : Parser DecodeError (Txid × T) := do
  let tx ← c.transaction.decode
  pure (c.txid tx, tx)

def readDownloadTxResult : Parser DecodeError (DownloadTxResult T) := do
  let txs ← readVec (readTx c)
  let unblinds ← readVec readUnblind
  pure ⟨txs, unblinds⟩

def readHeight : Parser DecodeError (Txid × Option Height) := do
  let txid ← readHash
  let height ← readU32
  pure (txid, if height = 0xffffffff then none else some height)

def readTimestamp : Parser DecodeError (Height × Timestamp) := do
  let h ← readU32
  let t ← readU32
  pure (h, t)

def readChain : Parser DecodeError Chain := do
  let tag ← readU8
  if tag = 0 then pure .external
  else if tag = 1 then pure .internal
  else throw (.parseFailed "Invalid chain")

def readScriptEntry (version : UInt8) : Parser DecodeError ScriptEntry := do
  let script ← c.script.decode
  let chain ← readChain
  let child ← readU32
  let blindingPubkey ← readFrom 2 version (readBlindingPubkey c) none
  pure (chain, .ofU32 child, script, blindingPubkey)

def readLastUnused : Parser DecodeError LastUnused := do
  let external ← readU32
  let internal ← readU32
  pure { external, internal }

def Update.consensusDecode : Parser DecodeError (Update T) := do
  let magicBytes ← takeBytes .io 4
  ensure (magicBytes = updateMagicBytes) "Invalid magic bytes"
  let version ← readU8
  ensure (version ≤ 4) "Unsupported version"
  let wolletStatus ← readFrom 1 version readU64 0
  let newTxs ← readDownloadTxResult c
  let txidHeightNew ← readVec readHeight
  let txidHeightDelete ← readVec readHash
  let timestamps ← readVec readTimestamp
  let scriptsWithBlindingPubkey ← readVec (readScriptEntry c version)
  let tip ← c.blockHeader.decode
  let unspent ← readFrom 3 version (readVec readOutPoint) []
  let lastUnused ← readFrom 4 version readLastUnused .default
  pure
    { version, wolletStatus, newTxs, txidHeightNew, txidHeightDelete, timestamps,
      scriptsWithBlindingPubkey, tip, unspent, lastUnused }

/-- `Update::deserialize`: bytes after the update are not looked at. -/
def Update.deserialize (bytes : Bytes) : Except DecodeError (Update T) :=
  ((Update.consensusDecode c).run bytes).map (·.1)

/-! ## Round trips of the parts -/

theorem decodes_ensure {ok : Bool} (h : ok = true) (msg : String) :
    Decodes (ensure ok msg) [] () := by
  rw [ensure, if_pos h]
  exact .pure ()

theorem decodes_readFrom {α : Type} {least version : UInt8} {p : Parser DecodeError α}
    {bs : Bytes} {a default : α} (hp : Decodes p bs a) (hdef : ¬ least ≤ version → a = default) :
    Decodes (readFrom least version p default) (emitFrom least version bs) a := by
  unfold readFrom emitFrom
  by_cases h : least ≤ version
  · rw [if_pos h, if_pos h]
    exact hp
  · rw [if_neg h, if_neg h, hdef h]
    exact .pure default

theorem decodes_readTxOutSecrets (s : TxOutSecrets) :
    Decodes readTxOutSecrets (emitTxOutSecrets s) s :=
  (decodes_readHash _).bind ((decodes_readTweak _).bind
    ((decodes_readU64 _).bind (decodes_readTweak _).map))

theorem decodes_readUnblind {e : OutPoint × TxOutSecrets} (h : e.1.vout < 2 ^ 32) :
    Decodes readUnblind (emitUnblind e) e :=
  (decodes_readOutPoint h).bind (decodes_readTxOutSecrets _).map

theorem decodes_readTx {e : Txid × T} (he : e.1 = c.txid e.2)
    (htakes : c.transaction.takes e.2 = true) :
    Decodes (readTx c) (c.transaction.encode e.2) e := by
  obtain ⟨txid, tx⟩ := e
  have htxid : txid = c.txid tx := he
  subst htxid
  exact (c.transaction.decodes tx htakes).map

theorem decodes_readHeight {e : Txid × Option Height} (he : e.2 ≠ some 0xffffffff) :
    Decodes readHeight (emitHeight e) e := by
  obtain ⟨txid, height⟩ := e
  have hval : (if height.getD 0xffffffff = 0xffffffff then none
      else some (height.getD 0xffffffff)) = height := by
    cases height with
    | none => rfl
    | some h =>
      have hne : h ≠ 0xffffffff := fun hh => he (by rw [hh])
      rw [Option.getD_some, if_neg hne]
  have h := (decodes_readHash txid).bind (f := fun t => do
      let height ← readU32
      pure (t, if height = 0xffffffff then none else some height))
    (decodes_readU32 (height.getD 0xffffffff)).map
  rwa [hval] at h

theorem decodes_readTimestamp (e : Height × Timestamp) :
    Decodes readTimestamp (emitTimestamp e) e :=
  (decodes_readU32 _).bind (decodes_readU32 _).map

theorem decodes_readChain (chain : Chain) : Decodes readChain (emitChain chain) chain := by
  cases chain with
  | external => exact (decodes_readU8 0).bind_nil (.pure _)
  | internal => exact (decodes_readU8 1).bind_nil (.pure _)

theorem ofU32_toU32 {child : ChildNumber} {i : UInt32} (h : child = .normal i)
    (hi : i < 0x80000000) : ChildNumber.ofU32 child.toU32 = child := by
  subst h
  have hbit : i &&& 0x80000000 = 0 := by
    apply UInt32.toNat_inj.1
    have hlt : i.toNat < 2 ^ 31 := hi
    show i.toNat &&& 2 ^ 31 = 0
    rw [Nat.and_two_pow, Nat.testBit_lt_two_pow hlt]
    rfl
  rw [ChildNumber.toU32, ChildNumber.ofU32, hbit]
  rfl

/-! ## Well-formed updates -/

/-- What an update must be for its bytes to stand for it: a version the decoder knows, fields
the version does not write at their defaults, txids of their transactions, heights that are not
the sentinel, normal child numbers and keys on the curve. The rest says that its parts are values of
the source's types: indexes are `u32`, lengths those of a `Vec`, and the codecs take the others. -/
structure Update.Storable (c : Codecs T) (u : Update T) : Prop where
  version : u.version ≤ 4
  status : ¬ 1 ≤ u.version → u.wolletStatus = 0
  keys : ¬ 2 ≤ u.version → ∀ e ∈ u.scriptsWithBlindingPubkey, e.2.2.2 = none
  unspent : ¬ 3 ≤ u.version → u.unspent = []
  lastUnused : ¬ 4 ≤ u.version → u.lastUnused = .default
  txids : ∀ e ∈ u.newTxs.txs, e.1 = c.txid e.2
  heights : ∀ e ∈ u.txidHeightNew, e.2 ≠ some 0xffffffff
  children : ∀ e ∈ u.scriptsWithBlindingPubkey, ∃ i, e.2.1 = .normal i ∧ i < 0x80000000
  onCurve : ∀ e ∈ u.scriptsWithBlindingPubkey, ∀ key ∈ e.2.2.2, c.onCurve key.x = true
  transactions : ∀ e ∈ u.newTxs.txs, c.transaction.takes e.2 = true
  scripts : ∀ e ∈ u.scriptsWithBlindingPubkey, c.script.takes e.2.2.1 = true
  tip : c.blockHeader.takes u.tip = true
  unblindsVout : ∀ e ∈ u.newTxs.unblinds, e.1.vout < 2 ^ 32
  unspentVout : ∀ o ∈ u.unspent, o.vout < 2 ^ 32
  txsLength : u.newTxs.txs.length < 2 ^ 64
  unblindsLength : u.newTxs.unblinds.length < 2 ^ 64
  newLength : u.txidHeightNew.length < 2 ^ 64
  deleteLength : u.txidHeightDelete.length < 2 ^ 64
  timestampsLength : u.timestamps.length < 2 ^ 64
  scriptsLength : u.scriptsWithBlindingPubkey.length < 2 ^ 64
  unspentLength : u.unspent.length < 2 ^ 64

theorem decodes_readDownloadTxResult {u : Update T} (hu : u.Storable c) :
    Decodes (readDownloadTxResult c) (emitDownloadTxResult c u.newTxs) u.newTxs :=
  (decodes_readList _ _ hu.txsLength fun e he =>
    decodes_readTx c (hu.txids e he) (hu.transactions e he)).bind
    (decodes_readList _ _ hu.unblindsLength fun e he =>
      decodes_readUnblind (hu.unblindsVout e he)).map

theorem decodes_readScriptEntry {version : UInt8} {e : ScriptEntry}
    (hkey : ¬ 2 ≤ version → e.2.2.2 = none) (hchild : ∃ i, e.2.1 = .normal i ∧ i < 0x80000000)
    (hcurve : ∀ key ∈ e.2.2.2, c.onCurve key.x = true)
    (hscript : c.script.takes e.2.2.1 = true) :
    Decodes (readScriptEntry c version) (emitScriptEntry c version e) e := by
  obtain ⟨i, hi, hlt⟩ := hchild
  have hfield := decodes_readFrom (decodes_readBlindingPubkey c _ hcurve) hkey
  refine (c.script.decodes _ hscript).bind ((decodes_readChain _).bind
    ((decodes_readU32 _).bind (hfield.bind_nil ?_)))
  rw [ofU32_toU32 hi hlt]
  exact .pure e

/-- **The decoder reads exactly the encoded update**, whatever follows it. -/
theorem decodes_update {u : Update T} (hu : u.Storable c) :
    Decodes (Update.consensusDecode c) (u.serialize c) u := by
  have hmagic : updateMagicBytes.length = 4 := rfl
  have hscripts : Decodes (readVec (readScriptEntry c u.version))
      (emitList (emitScriptEntry c u.version) u.scriptsWithBlindingPubkey)
      u.scriptsWithBlindingPubkey :=
    decodes_readList _ _ hu.scriptsLength fun e he =>
      decodes_readScriptEntry c (fun h => hu.keys h e he) (hu.children e he) (hu.onCurve e he)
        (hu.scripts e he)
  -- the decoder's steps, in the order the encoder wrote the fields
  refine (decodes_takeBytes _ hmagic).bind ((decodes_ensure (decide_eq_true rfl) _).nil_bind ?_)
  refine (decodes_readU8 _).bind ((decodes_ensure (decide_eq_true hu.version) _).nil_bind ?_)
  refine (decodes_readFrom (decodes_readU64 _) hu.status).bind ?_
  refine (decodes_readDownloadTxResult c hu).bind ?_
  refine (decodes_readList _ _ hu.newLength fun e he =>
    decodes_readHeight (hu.heights e he)).bind ?_
  refine (decodes_readList _ _ hu.deleteLength fun e _ => decodes_readHash e).bind ?_
  refine (decodes_readList _ _ hu.timestampsLength fun e _ => decodes_readTimestamp e).bind ?_
  refine hscripts.bind ((c.blockHeader.decodes _ hu.tip).bind ?_)
  refine (decodes_readFrom (decodes_readList _ _ hu.unspentLength fun o ho =>
    decodes_readOutPoint (hu.unspentVout o ho)) hu.unspent).bind ?_
  exact (decodes_readFrom ((decodes_readU32 _).bind (decodes_readU32 _).map) hu.lastUnused).map

theorem deserialize_serialize {u : Update T} (hu : u.Storable c) :
    Update.deserialize c (u.serialize c) = .ok u := by
  rw [Update.deserialize, (decodes_update c hu).run_eq]
  rfl

/-- An update that brings no more than a tip and openings. -/
def Update.bare (status : UInt64) (unblinds : List (OutPoint × TxOutSecrets)) (tip : BlockHeader)
    (lastUnused : LastUnused) : Update T where
  version := 4
  wolletStatus := status
  newTxs := ⟨[], unblinds⟩
  txidHeightNew := []
  txidHeightDelete := []
  timestamps := []
  scriptsWithBlindingPubkey := []
  tip := tip
  unspent := []
  lastUnused := lastUnused

theorem storable_bare {status : UInt64} {unblinds : List (OutPoint × TxOutSecrets)}
    {tip : BlockHeader} {lastUnused : LastUnused} (hlength : unblinds.length < 2 ^ 64)
    (hvout : ∀ e ∈ unblinds, e.1.vout < 2 ^ 32) (htip : c.blockHeader.takes tip = true) :
    (Update.bare status unblinds tip lastUnused).Storable c where
  version := Nat.le_refl 4
  status := fun h => absurd (show 1 ≤ 4 by decide) h
  keys := fun h => absurd (show 2 ≤ 4 by decide) h
  unspent := fun _ => rfl
  lastUnused := fun h => absurd (Nat.le_refl 4) h
  txids := fun _ he => absurd he List.not_mem_nil
  heights := fun _ he => absurd he List.not_mem_nil
  children := fun _ he => absurd he List.not_mem_nil
  onCurve := fun _ he => absurd he List.not_mem_nil
  transactions := fun _ he => absurd he List.not_mem_nil
  scripts := fun _ he => absurd he List.not_mem_nil
  tip := htip
  unblindsVout := hvout
  unspentVout := fun _ ho => absurd ho List.not_mem_nil
  txsLength := Nat.two_pow_pos 64
  unblindsLength := hlength
  newLength := Nat.two_pow_pos 64
  deleteLength := Nat.two_pow_pos 64
  timestampsLength := Nat.two_pow_pos 64
  scriptsLength := Nat.two_pow_pos 64
  unspentLength := Nat.two_pow_pos 64

/-- **The update format round-trips in every version**, whatever transactions are. A storable update
is what its bytes decode to, the decoder stops at their end, and no two storable updates share their
bytes. -/
theorem update_codec_roundtrip (c : Codecs T) : (∀ u : Update T, u.Storable c →
      Update.deserialize c (u.serialize c) = .ok u ∧
      ∀ rest, (Update.consensusDecode c).run (u.serialize c ++ rest) = .ok (u, rest)) ∧
    ∀ u u' : Update T, u.Storable c → u'.Storable c → u.serialize c = u'.serialize c → u = u' := by
  refine ⟨fun u hu => ⟨deserialize_serialize c hu, decodes_update c hu⟩, ?_⟩
  intro u u' hu hu' heq
  have h := decodes_update c hu
  rw [heq] at h
  exact h.unique (decodes_update c hu')

/-- A version 4 update with an unconfirmed and a confirmed transaction, a deletion, a script with
its blinding key and one without, and an explicit output unblinded. -/
def sampleUpdate : Update where
  version := 4
  wolletStatus := 77
  newTxs :=
    { txs := [(7, ⟨[⟨⟨3, 1⟩, .null⟩], [⟨.explicit 9, .explicit 1000, .null, [0, 20], none⟩]⟩)]
      unblinds := [(⟨7, 0⟩, ⟨9, .zero, 1000, .zero⟩)] }
  txidHeightNew := [(7, none), (3, some 120)]
  txidHeightDelete := [4]
  timestamps := [(120, 1700000000)]
  scriptsWithBlindingPubkey :=
    [(.external, .normal 0, [0, 20], some ⟨true, 5⟩), (.internal, .normal 0, [0, 21], none)]
  tip := defaultBlockheader
  unspent := [⟨7, 0⟩]
  lastUnused := ⟨0, 1⟩

theorem sampleUpdate_storable : sampleUpdate.Storable (Concrete.codecs fun _ => 7) where
  version := by decide
  status := fun h => absurd (by decide) h
  keys := fun h => absurd (by decide) h
  unspent := fun h => absurd (by decide) h
  lastUnused := fun h => absurd (by decide) h
  txids := by
    intro e he
    rw [List.mem_singleton.1 he]
    rfl
  heights := by simp [sampleUpdate]
  children := by
    intro e he
    simp only [sampleUpdate, List.mem_cons, List.not_mem_nil, or_false] at he
    rcases he with rfl | rfl
    · exact ⟨0, rfl, by decide⟩
    · exact ⟨0, rfl, by decide⟩
  onCurve := fun _ _ _ _ => rfl
  transactions := by decide
  scripts := by decide
  tip := by decide
  unblindsVout := by decide
  unspentVout := by decide
  txsLength := by decide
  unblindsLength := by decide
  newLength := by decide
  deleteLength := by decide
  timestampsLength := by decide
  scriptsLength := by decide
  unspentLength := by decide

theorem update_codec_roundtrip_sample : Update.deserialize (Concrete.codecs fun _ => 7)
      (sampleUpdate.serialize (Concrete.codecs fun _ => 7)) = .ok sampleUpdate :=
  ((update_codec_roundtrip (Concrete.codecs fun _ => 7)).1 sampleUpdate sampleUpdate_storable).1

end Swk
