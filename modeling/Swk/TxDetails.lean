import Swk.TxHistory

/-!
# The details of transactions

`txs` lists the transactions of a wallet a second time, with all inputs and outputs, the fees of
each asset, and a balance and a type of its own. It can leave out what takes reading a transaction.

**Theorem (`txs_agree`).** The short listing is the full one, and the balance of the history is that
of the details plus the wallet's explicit amounts, which the details leave out.

**Theorem (`redeposit_outgoing`).** What the details call a redeposit is outgoing in the history,
where the balance is compared with the fee and not with what it takes away.

Both balances are sums over outpoints and are compared at each (`amountAt_eq`). Without explicit
coins they have the same entries too (`same_txBalance`), and so the types can be compared.
-/

namespace Swk

open Cache List Wollet HashMap

structure TxOutDetails where
  outpoint : OutPoint
  scriptPubkey : Option Script := none
  address : Option Address := none
  height : Option Height
  isSpent : Bool
  wildcardIndex : Option ChildNumber := none
  extInt : Option Chain := none
  unblinded : Option TxOutSecrets := none

namespace TxOutDetails

variable (d : TxOutDetails)

def path : Option (List ChildNumber) :=
  match d.extInt, d.wildcardIndex with
  | some chain, some index => some [.normal (if chain = .external then 0 else 1), index]
  | _, _ => none

def isExplicit : Bool := (d.unblinded.map Swk.isExplicit).getD false

def counted : Option TxOutSecrets :=
  if d.path.isSome && !d.isExplicit then d.unblinded else none

end TxOutDetails

structure TxDetails where
  tx : Option Transaction := none
  txid : Txid
  fees : HashMap AssetId UInt64 := ∅
  height : Option Height
  timestamp : Option Timestamp
  inputs : List TxOutDetails := []
  outputs : List TxOutDetails := []
  /-- The empty text is `none`. -/
  type : Option TxType := none
  balance : HashMap AssetId Int64 := ∅

structure TxsOpt where
  offset : Option Nat
  limit : Option Nat
  withoutTx : Bool

def Transaction.allFees (tx : Transaction) : HashMap AssetId UInt64 :=
  tx.output.foldl (fun fees o =>
    match o.asset.explicit?, o.value.explicit? with
    | some asset, some value =>
      if o.scriptPubkey.isEmpty then fees.entry asset 0 (· + value) else fees
    | _, _ => fees) ∅

def detailsBalance (inputs outputs : List TxOutDetails) : HashMap AssetId Int64 :=
  let spent := (inputs.filterMap (·.counted)).foldl (fun (m : HashMap AssetId Int64) u =>
    m.entry u.asset 0 (· - u.value.toInt64)) ∅
  (outputs.filterMap (·.counted)).foldl (fun m u => m.entry u.asset 0 (· + u.value.toInt64)) spent

def detailsType (tx : Transaction) (fees : HashMap AssetId UInt64)
    (balance : HashMap AssetId Int64) : TxType :=
  if tx.input.any fun i =>
      !i.assetIssuance.isNull && i.assetIssuance.assetBlindingNonce = .zero then .issuance
  else if tx.input.any fun i =>
      !i.assetIssuance.isNull && i.assetIssuance.assetBlindingNonce ≠ .zero then .reissuance
  else if tx.output.any fun o => o.scriptPubkey = burnScript then .burn
  else if !fees.entries.isEmpty && balance.entries.length = fees.entries.length &&
      fees.toPairs.all fun e => balance.lookup e.1 = some (-e.2.toInt64) then .redeposit
  else if balance.entries.isEmpty then .unknown
  else if balance.values.all (0 < ·) then .incoming
  else if balance.values.all (· < 0) then .outgoing
  else .unknown

namespace Wollet

variable (w : Wollet)

def txoutDetails (outpoint : OutPoint) (height : Option Height) (txout : Option TxOut)
    (isSpent : Bool) : TxOutDetails :=
  match txout with
  | none => { outpoint, height, isSpent }
  | some txout =>
    let path := w.cache.paths.lookup txout.scriptPubkey
    { outpoint
      height
      -- of an output of others it is not known whether it is spent
      isSpent := path.isSome && isSpent
      extInt := path.map (·.1)
      wildcardIndex := path.map (·.2)
      address := Address.fromScript txout.scriptPubkey
        (path.bind fun p => (w.cache.scripts.lookup p).bind (·.2))
      scriptPubkey := some txout.scriptPubkey
      unblinded :=
        match txout.value.explicit?, txout.asset.explicit? with
        | some value, some asset => some ⟨asset, .zero, value, .zero⟩
        | _, _ => w.cache.unblinded.lookup outpoint }

def heightOf (txid : Txid) : Option Height := (w.cache.heights.lookup txid).getD none

def inputDetails (o : OutPoint) : TxOutDetails :=
  w.txoutDetails o (w.heightOf o.txid) ((w.disk.txs.lookup o.txid).bind (·.output[o.vout]?)) true

def outputDetails (txid : Txid) (height : Option Height) (e : TxOut × Nat) : TxOutDetails :=
  w.txoutDetails ⟨txid, e.2⟩ height (some e.1) (decide (⟨txid, e.2⟩ ∉ w.cache.unspent))

def txDetailsInner (txid : Txid) (height : Option Height) (withoutTx : Bool) : Option TxDetails :=
  let timestamp := height.bind w.cache.timestamps.lookup
  if withoutTx then some { txid, height, timestamp }
  else (w.disk.txs.lookup txid).map fun tx =>
    let inputs := tx.input.map fun i => w.inputDetails i.previousOutput
    let outputs := tx.output.zipIdx.map (w.outputDetails txid height)
    let balance := detailsBalance inputs outputs
    { tx := some tx
      txid
      fees := tx.allFees
      height
      timestamp
      inputs
      outputs
      type := some (detailsType tx tx.allFees balance)
      balance }

def txDetails (txid : Txid) : Option TxDetails := w.txDetailsInner txid (w.heightOf txid) false

def txs (opt : TxsOpt) : List TxDetails :=
  ((w.cache.sortedTxids.drop (opt.offset.getD 0)).take (opt.limit.getD usizeMax)).filterMap
    fun t => w.txDetailsInner t (w.heightOf t) opt.withoutTx

/-- Every script of the wallet has a path and an address to show. -/
def ScriptsShown : Prop :=
  ∀ script ∈ w.cache.paths, (∃ path, w.cache.index script = .ok path) ∧
    ∀ key, (Address.fromScript script key).isSome = true

/-- The amount of an asset at an outpoint of the wallet that is explicit. -/
def explicitAt (txos : HashMap OutPoint WalletTxOut) (a : AssetId) (o : OutPoint) : Int :=
  if (w.inputDetails o).isExplicit then amountAt txos a o else 0

/-- What a transaction brings of an asset in explicit amounts. -/
def explicitNet (txos : HashMap OutPoint WalletTxOut) (a : AssetId) (txid : Txid)
    (tx : Transaction) : Int :=
  ((tx.creates txid).map (w.explicitAt txos a)).sum - (tx.spends.map (w.explicitAt txos a)).sum

end Wollet

/-- The amount of an asset in what is counted. -/
def countedOf (a : AssetId) (c : Option TxOutSecrets) : Int :=
  (c.map fun u => if u.asset = a then (u.value.toNat : Int) else 0).getD 0

section Amounts

variable {w : Wollet} {txos : HashMap OutPoint WalletTxOut} {a : AssetId} {o : OutPoint} {t : Txid}
  {tx : Transaction} {d : TxDetails}

theorem sum_counted (a : AssetId) (l : List TxOutDetails) :
    ((l.filterMap (·.counted)).map fun u => if u.asset = a then (u.value.toNat : Int) else 0).sum =
      (l.map fun d => countedOf a d.counted).sum := by
  induction l with
  | nil => rfl
  | cons d l ih =>
    rw [map_cons, sum_cons, ← ih, countedOf, filterMap_cons]
    cases d.counted <;> simp

theorem getD_lookup_detailsBalance (inputs outputs : List TxOutDetails) :
    ((detailsBalance inputs outputs).lookup a).getD 0 =
      Int64.ofInt ((outputs.map fun d => countedOf a d.counted).sum -
        (inputs.map fun d => countedOf a d.counted).sum) := by
  rw [detailsBalance, getD_lookup_credit (fun u : TxOutSecrets => u.asset) (fun u => u.value),
    getD_lookup_debit (fun u : TxOutSecrets => u.asset) (fun u => u.value), sum_counted,
    sum_counted, Int64.ofInt_sub, Int64.sub_eq_add_neg, Int64.sub_eq_add_neg, Int64.add_comm]
  exact congrArg _ (Int64.zero_add _)

/-- The height and whether it is spent do not matter to what is counted of an output. -/
theorem counted_outputDetails {e : TxOut × Nat} {height : Option Height}
    (htx : w.disk.txs.lookup t = some tx) (he : e ∈ tx.output.zipIdx) :
    (w.outputDetails t height e).counted = (w.inputDetails ⟨t, e.2⟩).counted := by
  have hout := mem_zipIdx_iff_getElem?.1 he
  rw [inputDetails, htx, Option.bind_some, hout]
  rfl

theorem map_outputDetails {height : Option Height} {α : Type}
    (htx : w.disk.txs.lookup t = some tx) (f : Option TxOutSecrets → α) :
    (tx.output.zipIdx.map (w.outputDetails t height)).map (fun d => f d.counted) =
      (tx.creates t).map fun o => f (w.inputDetails o).counted := by
  rw [Transaction.creates, range_eq_range', ← zipIdx_map_snd 0 tx.output, map_map, map_map,
    map_map]
  exact map_congr_left fun e he => congrArg f (counted_outputDetails htx he)

theorem txDetails_some (htx : w.disk.txs.lookup t = some tx) (hd : w.txDetails t = some d) :
    d.txid = t ∧ d.tx = some tx ∧ d.height = w.heightOf t ∧ d.fees = tx.allFees ∧
      d.balance = detailsBalance (tx.input.map fun i => w.inputDetails i.previousOutput)
        (tx.output.zipIdx.map (w.outputDetails t (w.heightOf t))) ∧
      d.type = some (detailsType tx d.fees d.balance) := by
  rw [txDetails, txDetailsInner, if_neg Bool.false_ne_true, htx] at hd
  cases hd
  exact ⟨rfl, rfl, rfl, rfl, rfl, rfl⟩

theorem ownOutput_unblinded (hshown : w.ScriptsShown) {out : TxOut}
    (hout : (w.disk.txs.lookup o.txid).bind (·.output[o.vout]?) = some out) :
    (w.ownOutput o).map (·.unblinded) =
      (w.cache.paths.lookup out.scriptPubkey).bind fun _ => w.cache.unblinded.lookup o := by
  have hown : w.ownOutput o = w.cache.txoAt o.txid (out, o.vout) := by
    obtain ⟨tx, htx, hout⟩ := Option.bind_eq_some_iff.1 hout
    simp [ownOutput, htx, hout]
  cases hpath : w.cache.paths.lookup out.scriptPubkey with
  | none => simp [hown, txoAt, Cache.index, hpath, Except.toOption]
  | some path =>
    obtain ⟨⟨index, hindex⟩, haddress⟩ := hshown _ (mem_iff.2 ⟨path, hpath⟩)
    cases hunblinded : w.cache.unblinded.lookup o with
    | none => simp [hown, txoAt, hunblinded]
    | some s =>
      obtain ⟨address, haddress⟩ := Option.isSome_iff_exists.1
        (haddress (w.cache.blindingPubkeyOf s index.1 index.2))
      simp [hown, txoAt, hunblinded, hindex, Except.toOption, haddress]

/-- The details count what the history books, unless it is explicit. -/
theorem counted_inputDetails (hshown : w.ScriptsShown)
    (hexplicit : (w.inputDetails o).path.isSome = true → (w.inputDetails o).isExplicit = false) :
    (w.inputDetails o).counted = (w.ownOutput o).map (·.unblinded) := by
  unfold TxOutDetails.counted
  unfold inputDetails at hexplicit ⊢
  cases hout : (w.disk.txs.lookup o.txid).bind (·.output[o.vout]?) with
  | none =>
    have hown : w.ownOutput o = none := by
      apply Option.eq_none_iff_forall_ne_some.2
      intro u hu
      obtain ⟨tx, out, htx, hout', -⟩ := ownOutput_eq_some.1 hu
      simp [htx, hout'] at hout
    simp [hown, txoutDetails, TxOutDetails.path]
  | some out =>
    rw [hout] at hexplicit
    rw [ownOutput_unblinded hshown hout]
    cases hpath : w.cache.paths.lookup out.scriptPubkey with
    | none => simp [txoutDetails, hpath, TxOutDetails.path]
    | some path =>
      have hpath' : (w.txoutDetails o (w.heightOf o.txid) (some out) true).path.isSome = true := by
        simp [txoutDetails, hpath, TxOutDetails.path]
      rw [hpath', hexplicit hpath', Bool.not_false, Bool.and_true, if_pos rfl, Option.bind_some]
      have hblinded := hexplicit hpath'
      unfold txoutDetails at hblinded ⊢
      dsimp only at hblinded ⊢
      split
      · next hvalue hasset => simp [TxOutDetails.isExplicit, hvalue, hasset, isExplicit] at hblinded
      · rfl

theorem mem_detailsBalance {inputs outputs : List TxOutDetails} :
    a ∈ detailsBalance inputs outputs ↔ some a ∈ inputs.map (·.counted.map (·.asset)) ∨
      some a ∈ outputs.map (·.counted.map (·.asset)) := by
  rw [detailsBalance, mem_foldl_entry fun u : TxOutSecrets => u.asset,
    mem_foldl_entry fun u : TxOutSecrets => u.asset]
  simp [map_filterMap]

theorem mem_balance (htx : w.disk.txs.lookup t = some tx) (hd : w.txDetails t = some d) :
    a ∈ d.balance ↔ ∃ o ∈ tx.spends ++ tx.creates t,
      (w.inputDetails o).counted.map (·.asset) = some a := by
  obtain ⟨-, -, -, -, hbalance, -⟩ := txDetails_some htx hd
  rw [hbalance, mem_detailsBalance, map_outputDetails htx (Option.map (·.asset)),
    Transaction.spends]
  simp [or_and_right, exists_or]

theorem mem_txBalance : a ∈ txBalance t tx txos ↔
    ∃ o ∈ tx.spends ++ tx.creates t, (txos.lookup o).map (·.unblinded.asset) = some a := by
  unfold txBalance reduceOption
  rw [mem_foldl_entry fun u : WalletTxOut => u.unblinded.asset,
    mem_foldl_entry fun u : WalletTxOut => u.unblinded.asset,
    map_filterMap, map_filterMap, txOutputs, txInputs, Transaction.spends, Transaction.creates]
  simp only [AList.notMem_empty, false_or, mem_filterMap, mem_append, or_and_right, exists_or,
    mem_map, exists_exists_and_eq_and, or_comm, id]

variable (htxos : w.txosMap = .ok txos) (hlisted : ∀ t ∈ w.disk.txs, t ∈ w.cache.sortedTxids)

include htxos hlisted

theorem lookup_txos : txos.lookup o = w.ownOutput o := by
  apply Option.ext
  intro u
  rw [lookup_txosMap htxos, and_iff_right_iff_imp]
  intro hown
  obtain ⟨tx, -, htx, -⟩ := ownOutput_eq_some.1 hown
  exact hlisted _ (mem_iff.2 ⟨tx, htx⟩)

variable (hshown : w.ScriptsShown)

include hshown

/-- **One outpoint.** -/
theorem amountAt_eq :
    amountAt txos a o = countedOf a (w.inputDetails o).counted + w.explicitAt txos a o := by
  unfold explicitAt countedOf
  cases hexplicit : (w.inputDetails o).isExplicit with
  | true => simp [TxOutDetails.counted, hexplicit]
  | false =>
    rw [counted_inputDetails hshown fun _ => hexplicit, amountAt, lookup_txos htxos hlisted,
      Option.map_map]
    exact (add_zero _).symm

variable (htx : w.disk.txs.lookup t = some tx) (hd : w.txDetails t = some d)

include htx hd

/-- **Two balances.** -/
theorem txBalance_eq :
    ((txBalance t tx txos).lookup a).getD 0 =
      (d.balance.lookup a).getD 0 + Int64.ofInt (w.explicitNet txos a t tx) := by
  have hat (l : List OutPoint) : (l.map (amountAt txos a)).sum =
      (l.map fun o => countedOf a (w.inputDetails o).counted).sum +
        (l.map (w.explicitAt txos a)).sum := by
    rw [← sum_map_add]
    exact congrArg sum (map_congr_left fun o _ => amountAt_eq htxos hlisted hshown)
  obtain ⟨-, -, -, -, hbalance, -⟩ := txDetails_some htx hd
  rw [getD_lookup_txBalance, hbalance, getD_lookup_detailsBalance, ← Int64.ofInt_add, netOf,
    explicitNet, hat, hat, map_outputDetails htx (countedOf a), map_map]
  congr 1
  simp only [Transaction.spends, map_map, Function.comp_def]
  ring

/-- Without explicit coins of the wallet the two balances have the same entries. -/
theorem same_txBalance (hexplicit : ∀ o ∈ tx.spends ++ tx.creates t,
      (w.inputDetails o).path.isSome = true → (w.inputDetails o).isExplicit = false) :
    (txBalance t tx txos).Same d.balance := by
  have hcounted : ∀ o ∈ tx.spends ++ tx.creates t,
      (w.inputDetails o).counted = (txos.lookup o).map (·.unblinded) := by
    intro o ho
    rw [lookup_txos htxos hlisted, counted_inputDetails hshown (hexplicit o ho)]
  have hnone : ∀ o ∈ tx.spends ++ tx.creates t, ∀ a, w.explicitAt txos a o = 0 := by
    intro o ho a
    unfold explicitAt
    split_ifs with h
    · have hcount := hcounted o ho
      rw [TxOutDetails.counted, h, Bool.not_true, Bool.and_false,
        if_neg Bool.false_ne_true] at hcount
      rw [amountAt, Option.map_eq_none_iff.1 hcount.symm]
      rfl
    · rfl
  have hnet (a : AssetId) : w.explicitNet txos a t tx = 0 := by
    rw [explicitNet, sum_eq_zero, sum_eq_zero]
    · rfl
    · simpa using fun o ho => hnone o (mem_append_left _ ho) a
    · simpa using fun o ho => hnone o (mem_append_right _ ho) a
  refine HashMap.Same.of_getD 0 (fun a => ?_) fun a => ?_
  · rw [mem_txBalance, mem_balance htx hd]
    refine exists_congr fun o => and_congr_right fun ho => ?_
    rw [hcounted o ho, Option.map_map]
    rfl
  · rw [txBalance_eq htxos hlisted hshown htx hd, hnet]
    exact Int64.add_zero _

end Amounts

theorem Cache.stored_of_txosOf {c : Cache} {store : TxsStore} {ts : List Txid}
    {l : List WalletTxOut} (h : c.txosOf store ts = .ok l) : ∀ t ∈ ts, t ∈ store := by
  induction ts generalizing l with
  | nil => simp
  | cons t ts ih =>
    rw [txosOf] at h
    cases htx : store.lookup t with
    | none => simp [htx] at h
    | some tx =>
      rw [htx] at h
      obtain ⟨rest, hrest, -⟩ := except_bind_ok_iff.1 h
      exact forall_mem_cons.2 ⟨mem_iff.2 ⟨tx, htx⟩, ih hrest⟩

/-- An entry of a page is of a transaction listed there. -/
theorem mem_transactionsPaginated {env : Env} {w : Wollet} {offset limit : Nat}
    {txs : List HistoryTx} {e : HistoryTx} {txos : HashMap OutPoint WalletTxOut}
    (htxos : w.txosMap = .ok txos) (h : w.transactionsPaginated env offset limit = .ok txs)
    (he : e ∈ txs) : e.txid ∈ (w.cache.sortedTxids.drop offset).take limit ∧
      w.disk.txs.lookup e.txid = some e.tx ∧ e.height = w.heightOf e.txid ∧
      e.balance = txBalance e.txid e.tx txos ∧
      e.type = txType e.tx env.policyAsset e.balance (txFee e.tx) := by
  obtain ⟨_, htxos', h⟩ := except_bind_ok_iff.1 h
  cases htxos.symm.trans htxos'
  obtain ⟨entries, hentries, h⟩ := except_bind_ok_iff.1 h
  cases h
  obtain ⟨t, ht, hentry⟩ := mapM_ok_mem hentries _ (reduceOption_mem_iff.1 he)
  unfold historyTx at hentry
  cases htx : w.disk.txs.lookup t with
  | none =>
    rw [htx] at hentry
    cases hentry
  | some tx =>
    rw [htx] at hentry
    dsimp only at hentry
    split_ifs at hentry with hskip
    · cases hentry
    · cases hentry
      exact ⟨ht, htx, rfl, rfl, rfl⟩

/-- **The details and the history.** Without the transactions the same is listed. What a page of the
history lists is in the details, with the same balance but for explicit amounts. -/
theorem txs_agree {env : Env} {w : Wollet} {offset limit : Nat} {txs : List HistoryTx}
    (h : w.transactionsPaginated env offset limit = .ok txs) (hshown : w.ScriptsShown)
    (hlisted : ∀ t ∈ w.disk.txs, t ∈ w.cache.sortedTxids) :
    ((w.txs ⟨offset, limit, true⟩).map fun d => (d.txid, d.height, d.timestamp)) =
      (w.txs ⟨offset, limit, false⟩).map (fun d => (d.txid, d.height, d.timestamp)) ∧
    ∃ txos, w.txosMap = .ok txos ∧ ∀ e ∈ txs, ∃ d ∈ w.txs ⟨offset, limit, false⟩,
      d.txid = e.txid ∧ d.tx = some e.tx ∧ d.height = e.height ∧ ∀ a,
        (e.balance.lookup a).getD 0 =
          (d.balance.lookup a).getD 0 + Int64.ofInt (w.explicitNet txos a e.txid e.tx) := by
  obtain ⟨txos, htxos, -⟩ := except_bind_ok_iff.1 h
  refine ⟨?_, txos, htxos, fun e he => ?_⟩
  · obtain ⟨l, hl, -⟩ := except_bind_ok_iff.1 htxos
    rw [Wollet.txs, Wollet.txs, map_filterMap, map_filterMap]
    refine filterMap_congr fun t ht => ?_
    obtain ⟨tx, htx⟩ := mem_iff.1
      (Cache.stored_of_txosOf hl t (mem_of_mem_drop (mem_of_mem_take ht)))
    simp [txDetailsInner, htx]
  · obtain ⟨ht, htx, hheight, hbalance, -⟩ := mem_transactionsPaginated htxos h he
    obtain ⟨d, hd⟩ : ∃ d, w.txDetails e.txid = some d := by simp [txDetails, txDetailsInner, htx]
    obtain ⟨htxid, hdtx, hdheight, -⟩ := txDetails_some htx hd
    refine ⟨d, mem_filterMap.2 ⟨e.txid, ht, hd⟩, htxid, hdtx, hdheight.trans hheight.symm, ?_⟩
    intro a
    rw [hbalance, txBalance_eq htxos hlisted hshown htx hd]

namespace Recounted

open Relisted

theorem scriptsShown : before.ScriptsShown := by
  intro s hs
  have hkeys : before.cache.paths.keys = [script] := rfl
  rw [AList.mem_keys, hkeys, mem_singleton] at hs
  subst hs
  exact ⟨⟨_, rfl⟩, fun key => rfl⟩

/-- Of the explicit payment the history books 1000 and the details nothing. -/
theorem txs_agree_before : ∃ txos txs, before.txosMap = .ok txos ∧
    before.transactionsPaginated env 0 2 = .ok txs ∧ before.explicitNet txos 1 0 parent = 1000 ∧
    ∀ e ∈ txs, ∃ d ∈ before.txs ⟨some 0, some 2, false⟩, d.txid = e.txid := by
  have hlisted : ∀ t ∈ before.disk.txs, t ∈ before.cache.sortedTxids := by
    have hkeys : before.disk.txs.keys = [0, 1] := rfl
    have hids : before.cache.sortedTxids = [1, 0] := rfl
    simp [AList.mem_keys, hkeys, hids]
  obtain ⟨txs, htxs⟩ : ∃ txs, before.transactionsPaginated env 0 2 = .ok txs := ⟨_, rfl⟩
  obtain ⟨-, txos, -, hentries⟩ := txs_agree htxs scriptsShown hlisted
  exact ⟨_, txs, rfl, htxs, rfl, fun e he => (hentries e he).imp fun d hd => ⟨hd.1, hd.2.1⟩⟩

end Recounted

/-- What is a redeposit by the details is outgoing by the history, if the balances agree. -/
theorem txType_of_redeposit {tx : Transaction} {policyAsset : AssetId} {fee : UInt64}
    {balance balance' : HashMap AssetId Int64} (hfees : tx.allFees.toPairs = [(policyAsset, fee)])
    (hpos : 0 < fee.toInt64) (htotal : 0 < (txFee tx).toInt64) (hsame : balance'.Same balance)
    (h : detailsType tx tx.allFees balance = .redeposit) :
    txType tx policyAsset balance' (txFee tx) = .outgoing := by
  have hneg : -fee.toInt64 < 0 := by grind
  unfold detailsType at h
  split_ifs at h with hissuance hreissuance hburn hredeposit
  simp only [Bool.and_eq_true, decide_eq_true_eq, hfees, all_cons, all_nil, and_true] at hredeposit
  obtain ⟨⟨-, hlength⟩, hlookup⟩ := hredeposit
  rw [← hsame] at hlookup
  have hone : balance'.entries.length = 1 := by
    have hkeys := hsame.keys_perm.length_eq
    have hpairs := congrArg length hfees
    rw [AList.keys, List.keys, AList.keys, List.keys, length_map, length_map] at hkeys
    rw [HashMap.toPairs, length_map] at hpairs
    exact hkeys.trans (hlength.trans hpairs)
  obtain ⟨e, he⟩ := length_eq_one_iff.1 hone
  have hvalues : balance'.values = [-fee.toInt64] := by
    have hmem := mem_toPairs.2 hlookup
    rw [HashMap.toPairs, he, map_singleton, mem_singleton] at hmem
    rw [HashMap.values, he, map_singleton, ← (Prod.mk.inj hmem).2]
  unfold txType
  rw [if_neg hissuance, if_neg hreissuance, if_neg hburn, if_neg, if_neg, if_neg, if_pos]
  · simpa [hvalues] using hneg
  · simpa [hvalues] using Int64.le_of_lt hneg
  · simp [he]
  · rw [hlookup, Option.some_inj]
    grind

/-- **A redeposit is outgoing.** If only the policy asset pays fees, and the wallet has no explicit
coin in the transaction, a redeposit by the details is outgoing in every page of the history. -/
theorem redeposit_outgoing {env : Env} {w : Wollet} {offset limit : Nat} {txs : List HistoryTx}
    {e : HistoryTx} {d : TxDetails} {fee : UInt64}
    (h : w.transactionsPaginated env offset limit = .ok txs) (hshown : w.ScriptsShown)
    (hlisted : ∀ t ∈ w.disk.txs, t ∈ w.cache.sortedTxids) (he : e ∈ txs)
    (hd : w.txDetails e.txid = some d)
    (hexplicit : ∀ o ∈ e.tx.spends ++ e.tx.creates e.txid, (w.inputDetails o).path.isSome = true →
      (w.inputDetails o).isExplicit = false)
    (hfees : d.fees.toPairs = [(env.policyAsset, fee)]) (hpos : 0 < fee.toInt64)
    (htotal : 0 < (txFee e.tx).toInt64) (htype : d.type = some .redeposit) :
    e.type = .outgoing := by
  obtain ⟨txos, htxos, -⟩ := except_bind_ok_iff.1 h
  obtain ⟨-, htx, -, hbalance, hetype⟩ := mem_transactionsPaginated htxos h he
  have hsame := same_txBalance htxos hlisted hshown htx hd hexplicit
  rw [← hbalance] at hsame
  obtain ⟨-, -, -, hdfees, -, hdtype⟩ := txDetails_some htx hd
  rw [hdfees] at hfees hdtype
  rw [hetype]
  exact txType_of_redeposit hfees hpos htotal hsame (Option.some.inj (hdtype.symm.trans htype))

namespace Redeposit

open Recounted Relisted

def coin : TxOut := ⟨.confidential 2, .confidential 3, .null, script, none⟩

def parent : Transaction := ⟨[], [coin]⟩

def child : Transaction :=
  ⟨[⟨⟨0, 0⟩, .null⟩], [coin, ⟨.explicit 1, .explicit 7, .null, [], none⟩]⟩

def wallet : Wollet :=
  { before with
    disk := { before.disk with txs := .ofPairs [(0, parent), (1, child)] }
    cache := { before.cache with
      unblinded := .ofPairs [(⟨0, 0⟩, ⟨1, .one, 1000, .one⟩), (⟨1, 0⟩, ⟨1, .one, 993, .one⟩)] } }

theorem redeposit_outgoing_seven : ∃ d e, wallet.txDetails 1 = some d ∧
    d.type = some .redeposit ∧ wallet.transactionsPaginated env 0 1 = .ok [e] ∧
    e.type = .outgoing := by
  obtain ⟨d, hd, hfees, htype⟩ : ∃ d, wallet.txDetails 1 = some d ∧
    d.fees.toPairs = [(1, 7)] ∧ d.type = some .redeposit := ⟨_, rfl, rfl, rfl⟩
  obtain ⟨e, h, htxid, htx⟩ : ∃ e, wallet.transactionsPaginated env 0 1 = .ok [e] ∧ e.txid = 1 ∧
    e.tx = child := ⟨_, rfl, rfl, rfl⟩
  have hlisted : ∀ t ∈ wallet.disk.txs, t ∈ wallet.cache.sortedTxids := by
    have hkeys : wallet.disk.txs.keys = [1, 0] := rfl
    have hids : wallet.cache.sortedTxids = [1, 0] := rfl
    simp [AList.mem_keys, hkeys, hids]
  rw [← htxid] at hd
  refine ⟨d, e, htxid ▸ hd, htype, h, ?_⟩
  refine redeposit_outgoing h scriptsShown hlisted (mem_singleton.2 rfl) hd ?_ hfees (by decide)
    ?_ htype
  · rw [htx, htxid]
    decide
  · rw [htx]
    decide

end Redeposit

end Swk
