import Swk.Funds

/-!
# The wallet's view of transactions

`txos_inner` lists the wallet's outputs, spent ones included, and `transaction` dresses a
transaction with the inputs and outputs that belong to the wallet. The issuances the wallet knows
are read off its transactions.
-/

namespace Swk

/-- A 32-byte hash as the code prints it: its bytes in reverse, in hexadecimal. -/
def displayHash (h : BitVec 256) : String :=
  String.join ((List.range 32).map fun i => (h.extractLsb' (8 * i) 8).toHex)

/-! ## Issuances -/

structure IssuanceHash where
  /-- `AssetId::generate_asset_entropy`, of a prevout and a contract hash. -/
  generateAssetEntropy : OutPoint → BitVec 256 → BitVec 256
  fromEntropy : BitVec 256 → AssetId
  /-- `AssetId::reissuance_token_from_entropy`; the flag says that the issuance is confidential. -/
  reissuanceTokenFromEntropy : BitVec 256 → Bool → AssetId

variable (h : IssuanceHash)

/-- The ids of an issued asset and of its token. A zero nonce means a new issuance: the entropy
comes from the prevout and a contract hash. -/
def IssuanceHash.ids (prevout : OutPoint) (nonce : Tweak) (entropy : BitVec 256)
    (confidential : Bool) : AssetId × AssetId :=
  let entropy := if nonce = .zero then h.generateAssetEntropy prevout entropy else entropy
  (h.fromEntropy entropy, h.reissuanceTokenFromEntropy entropy confidential)

def AssetIssuance.isNull (i : AssetIssuance) : Bool := i.amount = .null && i.inflationKeys = .null

def Value.isConfidential : Value → Bool
  | .confidential _ => true
  | _ => false

def TxIn.hasIssuance (i : TxIn) : Bool := !i.assetIssuance.isNull

def TxIn.issuanceIds (i : TxIn) : AssetId × AssetId :=
  h.ids i.previousOutput i.assetIssuance.assetBlindingNonce i.assetIssuance.assetEntropy
    i.assetIssuance.amount.isConfidential

structure IssuanceDetails where
  txid : Txid
  vin : Nat
  entropy : BitVec 256
  asset : AssetId
  token : AssetId
  isReissuance : Bool
  assetAmount : Option UInt64
  tokenAmount : Option UInt64
deriving DecidableEq

/-- The details of input `vin`. The entropy is computed as that of a new issuance, whatever the
input is. -/
def TxIn.issuanceDetails (txid : Txid) (vin : Nat) (i : TxIn) : IssuanceDetails where
  txid := txid
  vin := vin
  entropy := h.generateAssetEntropy i.previousOutput i.assetIssuance.assetEntropy
  asset := (i.issuanceIds h).1
  token := (i.issuanceIds h).2
  isReissuance := i.assetIssuance.assetBlindingNonce ≠ .zero
  assetAmount := i.assetIssuance.amount.explicit?
  tokenAmount := i.assetIssuance.inflationKeys.explicit?

def extractIssuances (env : Env) (h : IssuanceHash) (tx : Transaction) : List IssuanceDetails :=
  (tx.input.zipIdx.filter fun e => e.1.hasIssuance).map fun e =>
    e.1.issuanceDetails h (env.txid tx) e.2

/-! ## Outputs of the wallet -/

namespace Cache

/-- The wallet output at `vout` of transaction `t`, if it is one. -/
def txoAt (c : Cache) (t : Txid) (e : TxOut × Nat) : Option WalletTxOut := do
  let outpoint : OutPoint := ⟨t, e.2⟩
  let unblinded ← c.unblinded.lookup outpoint
  let path ← (c.index e.1.scriptPubkey).toOption
  let address ← Address.fromScript e.1.scriptPubkey (c.blindingPubkeyOf unblinded path.1 path.2)
  pure
    { outpoint := outpoint
      scriptPubkey := e.1.scriptPubkey
      height := (c.heights.lookup t).getD none
      unblinded := unblinded
      wildcardIndex := path.2
      extInt := path.1
      isSpent := decide (outpoint ∉ c.unspent)
      address := address }

/-- The wallet outputs of the listed transactions. -/
def txosOf (c : Cache) (store : TxsStore) : List Txid → Except Error (List WalletTxOut)
  | [] => .ok []
  | t :: ts =>
    match store.lookup t with
    | none => .error (.generic ("txos no tx " ++ displayHash t))
    | some tx => do
        let rest ← c.txosOf store ts
        pure (tx.output.zipIdx.filterMap (c.txoAt t) ++ rest)

end Cache

namespace Wollet

variable (w : Wollet)

def txosInner : Except Error (List WalletTxOut) :=
  w.cache.txosOf w.disk.txs w.cache.sortedTxids

def txosMap : Except Error (HashMap OutPoint WalletTxOut) := do
  let txos ← w.txosInner
  pure (HashMap.ofPairs (txos.map fun u => (u.outpoint, u)))

def utxosMap : Except Error (HashMap OutPoint WalletTxOut) := do
  let utxos ← w.cache.utxosInner
  pure (HashMap.ofPairs (utxos.map fun u => (u.outpoint, u)))

/-- The wallet output at an outpoint of a stored transaction. -/
def ownOutput (o : OutPoint) : Option WalletTxOut := do
  let tx ← w.disk.txs.lookup o.txid
  let out ← tx.output[o.vout]?
  w.cache.txoAt o.txid (out, o.vout)

end Wollet

section Txos

variable {c : Cache} {w : Wollet} {u : WalletTxOut} {o : OutPoint}

theorem Cache.txoAt_some {t : Txid} {e : TxOut × Nat} (h : c.txoAt t e = some u) :
    u.outpoint = ⟨t, e.2⟩ ∧ u.scriptPubkey = e.1.scriptPubkey ∧
      u.height = (c.heights.lookup t).getD none ∧
      c.unblinded.lookup ⟨t, e.2⟩ = some u.unblinded ∧
      c.index e.1.scriptPubkey = .ok (u.extInt, u.wildcardIndex) ∧
      Address.fromScript e.1.scriptPubkey
        (c.blindingPubkeyOf u.unblinded u.extInt u.wildcardIndex) = some u.address := by
  simp only [txoAt, Option.bind_eq_bind, Option.bind_eq_some_iff] at h
  obtain ⟨unblinded, hunblinded, path, hpath, address, haddress, h⟩ := h
  cases h
  have hindex : c.index e.1.scriptPubkey = .ok path := by
    cases hcase : c.index e.1.scriptPubkey with
    | error err =>
      rw [hcase] at hpath
      cases hpath
    | ok path' =>
      rw [hcase] at hpath
      cases hpath
      rfl
  exact ⟨rfl, rfl, rfl, hunblinded, hindex, haddress⟩

theorem Wollet.ownOutput_eq_some :
    w.ownOutput o = some u ↔ ∃ tx out, w.disk.txs.lookup o.txid = some tx ∧
      tx.output[o.vout]? = some out ∧ w.cache.txoAt o.txid (out, o.vout) = some u := by
  simp only [ownOutput, Option.bind_eq_bind, Option.bind_eq_some_iff]
  constructor
  · rintro ⟨tx, htx, out, hout, hu⟩
    exact ⟨tx, out, htx, hout, hu⟩
  · rintro ⟨tx, out, htx, hout, hu⟩
    exact ⟨tx, htx, out, hout, hu⟩

theorem Wollet.ownOutput_outpoint (h : w.ownOutput o = some u) : u.outpoint = o := by
  obtain ⟨tx, out, -, -, hu⟩ := ownOutput_eq_some.1 h
  exact (Cache.txoAt_some hu).1

theorem Wollet.mem_txosOf {ts : List Txid} {txos : List WalletTxOut}
    (h : w.cache.txosOf w.disk.txs ts = .ok txos) :
    u ∈ txos ↔ u.outpoint.txid ∈ ts ∧ w.ownOutput u.outpoint = some u := by
  induction ts generalizing txos with
  | nil =>
    cases h
    simp
  | cons t ts ih =>
    rw [Cache.txosOf] at h
    cases htx : w.disk.txs.lookup t with
    | none =>
      rw [htx] at h
      cases h
    | some tx =>
      rw [htx] at h
      obtain ⟨rest, hrest, h⟩ := except_bind_ok_iff.1 h
      cases h
      rw [List.mem_append, ih hrest, List.mem_cons, or_and_right]
      refine or_congr ?_ Iff.rfl
      rw [List.mem_filterMap]
      constructor
      · rintro ⟨⟨out, vout⟩, hout, hu⟩
        rw [List.mem_zipIdx_iff_getElem?] at hout
        have houtpoint := (Cache.txoAt_some hu).1
        rw [houtpoint]
        exact ⟨rfl, ownOutput_eq_some.2 ⟨tx, out, htx, hout, hu⟩⟩
      · rintro ⟨htxid, hown⟩
        obtain ⟨tx', out, htx', hout, hu⟩ := ownOutput_eq_some.1 hown
        rw [htxid] at htx' hu
        rw [htx] at htx'
        cases htx'
        exact ⟨(out, u.outpoint.vout), List.mem_zipIdx_iff_getElem?.2 hout, hu⟩

theorem Wollet.lookup_txosMap {txos : HashMap OutPoint WalletTxOut} (h : w.txosMap = .ok txos) :
    txos.lookup o = some u ↔ o.txid ∈ w.cache.sortedTxids ∧ w.ownOutput o = some u := by
  obtain ⟨l, hl, h⟩ := except_bind_ok_iff.1 h
  cases h
  have hmem (u : WalletTxOut) := mem_txosOf (u := u) hl
  rw [HashMap.lookup_ofPairs]
  constructor
  · intro hu
    obtain ⟨v, hv, he⟩ := List.mem_map.1 (HashMap.mem_of_lastValue hu)
    cases he
    exact (hmem _).1 hv
  · rintro ⟨hlisted, hown⟩
    have houtpoint := ownOutput_outpoint hown
    refine HashMap.lastValue_eq_some (List.mem_map.2 ⟨u, (hmem u).2 ?_, ?_⟩) ?_
    · rw [houtpoint]
      exact ⟨hlisted, hown⟩
    · rw [houtpoint]
    · intro v hv
      obtain ⟨v', hv', he⟩ := List.mem_map.1 hv
      cases he
      rw [← Option.some_inj, ← ((hmem _).1 hv').2, hown]

end Txos

/-! ## Transactions of the wallet -/

/-- A transaction with the inputs and outputs that belong to the wallet. -/
structure WalletTx where
  tx : Transaction
  txid : Txid
  height : Option Height
  inputs : List (Option WalletTxOut)
  outputs : List (Option WalletTxOut)

def txInputs (tx : Transaction) (txos : HashMap OutPoint WalletTxOut) : List (Option WalletTxOut) :=
  tx.input.map fun i => txos.lookup i.previousOutput

def txOutputs (txid : Txid) (tx : Transaction) (txos : HashMap OutPoint WalletTxOut) :
    List (Option WalletTxOut) :=
  (List.range tx.output.length).map fun vout => txos.lookup ⟨txid, vout⟩

namespace Wollet

/-- A transaction of the store as the wallet sees it. -/
def walletTx (w : Wollet) (txos : HashMap OutPoint WalletTxOut) (txid : Txid) (tx : Transaction) :
    WalletTx where
  tx := tx
  txid := txid
  height := (w.cache.heights.lookup txid).getD none
  inputs := txInputs tx txos
  outputs := txOutputs txid tx txos

/-- `Wollet::transaction`: also of a transaction that is not the wallet's. -/
def transaction (w : Wollet) (txid : Txid) : Except Error (Option WalletTx) :=
  match w.disk.txs.lookup txid with
  | none => .ok none
  | some tx => do
      let txos ← w.txosMap
      pure (some (w.walletTx txos txid tx))

/-- The listed transactions that touch the wallet. With no input or output of the wallet the
balance of a transaction is empty, so that is all there is to check. -/
def transactionsOf (w : Wollet) (txos : HashMap OutPoint WalletTxOut) :
    List Txid → Except Error (List WalletTx)
  | [] => .ok []
  | t :: ts =>
    match w.disk.txs.lookup t with
    | none => .error (.generic ("list_tx no tx " ++ displayHash t))
    | some tx => do
        let rest ← w.transactionsOf txos ts
        let wtx := w.walletTx txos t tx
        if wtx.inputs.all (·.isNone) && wtx.outputs.all (·.isNone) then pure rest
        else pure (wtx :: rest)

def transactions (w : Wollet) : Except Error (List WalletTx) := do
  let txos ← w.txosMap
  w.transactionsOf txos w.cache.sortedTxids

def issuances (env : Env) (h : IssuanceHash) (w : Wollet) :
    Except Error (List IssuanceDetails) := do
  let txs ← w.transactions
  pure (txs.flatMap fun wtx => extractIssuances env h wtx.tx)

def issuance (env : Env) (h : IssuanceHash) (w : Wollet) (asset : AssetId) :
    Except Error IssuanceDetails := do
  let all ← w.issuances env h
  match all.find? fun d => d.asset = asset && !d.isReissuance with
  | some d => pure d
  | none => throw .missingIssuance

end Wollet

end Swk
