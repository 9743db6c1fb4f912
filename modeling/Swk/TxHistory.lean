import Mathlib.Algebra.Order.BigOperators.Group.List
import Swk.Same
import Swk.Transactions
import Swk.Unspent

/-!
# The history and the balance

The wallet says what it holds in two ways. `balance` adds up the map of unspent outputs.
`transactions` goes through the listed transactions and books, for each, the outputs that belong
to the wallet less the inputs that do. This file models the second in full, page by page, and
compares the two.

The pages are slices of one list (`history_pages`), sorted by height (`history_ordered`). The sums
telescope: what the transactions add up to is what they create and do not spend
(`Ledger.sum_net`), so history and balance agree as long as the unspent map is exact. It is in
every run of applied updates that put nothing stale back (`history_agrees`).
-/

namespace Swk

open Cache List Wollet

/-! ## What the history says of a transaction -/

/-- What a transaction looks like from its issuances and its balance. -/
inductive TxType
  | issuance
  | reissuance
  | burn
  | redeposit
  | incoming
  | outgoing
  | unknown
deriving DecidableEq

structure HistoryTx extends WalletTx where
  balance : HashMap AssetId Int64
  fee : UInt64
  type : TxType
  timestamp : Option Timestamp

/-- `tx_balance`: the outputs of the wallet are booked in, its inputs are booked out. -/
def txBalance (txid : Txid) (tx : Transaction) (txos : HashMap OutPoint WalletTxOut) :
    HashMap AssetId Int64 :=
  let received := (txOutputs txid tx txos).reduceOption.foldl (fun (m : HashMap AssetId Int64) u =>
    m.entry u.unblinded.asset 0 (· + u.unblinded.value.toInt64)) ∅
  (txInputs tx txos).reduceOption.foldl (fun m u =>
    m.entry u.unblinded.asset 0 (· - u.unblinded.value.toInt64)) received

def txFee (tx : Transaction) : UInt64 :=
  (tx.output.filter fun o => o.scriptPubkey.isEmpty).foldl
    (fun fee o => fee + o.value.explicit?.getD 0) 0

/-- `burn_script`: a lone `OP_RETURN`. -/
def burnScript : Script := [0x6a]

def txType (tx : Transaction) (policyAsset : AssetId) (balance : HashMap AssetId Int64)
    (fee : UInt64) : TxType :=
  if tx.input.any fun i =>
      !i.assetIssuance.isNull && i.assetIssuance.assetBlindingNonce = .zero then .issuance
  else if tx.input.any fun i =>
      !i.assetIssuance.isNull && i.assetIssuance.assetBlindingNonce ≠ .zero then .reissuance
  else if tx.output.any fun o => o.scriptPubkey = burnScript then .burn
  else if balance.entries.length = 1 ∧ balance.lookup policyAsset = some fee.toInt64 then .redeposit
  else if balance.entries.isEmpty then .unknown
  else if balance.values.all (0 < ·) then .incoming
  else if balance.values.all (· < 0) then .outgoing
  else .unknown

/-- `usize::MAX`. -/
def usizeMax : Nat := 2 ^ 64 - 1

namespace Wollet

/-- The entry of a listed transaction, unless nothing of it is the wallet's. -/
def historyTx (env : Env) (w : Wollet) (txos : HashMap OutPoint WalletTxOut) (txid : Txid) :
    Except Error (Option HistoryTx) :=
  match w.disk.txs.lookup txid with
  | none => .error (.generic ("list_tx no tx " ++ displayHash txid))
  | some tx =>
    let wtx := w.walletTx txos txid tx
    let balance := txBalance txid tx txos
    if balance.entries.isEmpty && wtx.inputs.all (·.isNone) && wtx.outputs.all (·.isNone) then
      .ok none
    else
      .ok (some
        { wtx with
          balance := balance
          fee := txFee tx
          type := txType tx env.policyAsset balance (txFee tx)
          timestamp := wtx.height.bind w.cache.timestamps.lookup })

def transactionsPaginated (env : Env) (w : Wollet) (offset limit : Nat) :
    Except Error (List HistoryTx) := do
  let txos ← w.txosMap
  let txs ← ((w.cache.sortedTxids.drop offset).take limit).mapM (w.historyTx env txos)
  pure txs.reduceOption

/-- `Wollet::transactions`, with all it says of a transaction. -/
def history (env : Env) (w : Wollet) : Except Error (List HistoryTx) :=
  w.transactionsPaginated env 0 usizeMax

end Wollet

/-! ## Amounts -/

def WalletTxOut.amountOf (a : AssetId) (u : WalletTxOut) : Int :=
  if u.unblinded.asset = a then u.unblinded.value.toNat else 0

/-- The amount of an asset at an outpoint, if it is one of the wallet's. -/
def amountAt (txos : HashMap OutPoint WalletTxOut) (a : AssetId) (o : OutPoint) : Int :=
  ((txos.lookup o).map (WalletTxOut.amountOf a)).getD 0

def Transaction.creates (txid : Txid) (tx : Transaction) : List OutPoint :=
  (List.range tx.output.length).map fun vout => ⟨txid, vout⟩

/-- What a transaction brings the wallet of an asset, without rounding to a machine integer. -/
def netOf (txos : HashMap OutPoint WalletTxOut) (a : AssetId) (txid : Txid) (tx : Transaction) :
    Int :=
  ((tx.creates txid).map (amountAt txos a)).sum - (tx.spends.map (amountAt txos a)).sum

section Amounts

variable (txid : Txid) (tx : Transaction) (txos : HashMap OutPoint WalletTxOut) (a : AssetId)

theorem sum_txOutputs : ((txOutputs txid tx txos).reduceOption.map (WalletTxOut.amountOf a)).sum =
    ((tx.creates txid).map (amountAt txos a)).sum := by
  rw [sum_reduceOption, txOutputs, map_map, Transaction.creates, map_map]
  rfl

theorem sum_txInputs : ((txInputs tx txos).reduceOption.map (WalletTxOut.amountOf a)).sum =
    (tx.spends.map (amountAt txos a)).sum := by
  rw [sum_reduceOption, txInputs, map_map, Transaction.spends, map_map]
  rfl

/-- **The balance of a transaction** is what it brings, as a machine integer. -/
theorem getD_lookup_txBalance :
    ((txBalance txid tx txos).lookup a).getD 0 = Int64.ofInt (netOf txos a txid tx) := by
  have houtputs := sum_txOutputs txid tx txos a
  have hinputs := sum_txInputs tx txos a
  unfold WalletTxOut.amountOf at houtputs hinputs
  rw [txBalance, getD_lookup_debit (fun u : WalletTxOut => u.unblinded.asset)
      (fun u => u.unblinded.value),
    getD_lookup_credit (fun u : WalletTxOut => u.unblinded.asset) (fun u => u.unblinded.value),
    houtputs, hinputs, netOf, Int64.ofInt_sub]
  exact congrArg (· - _) (Int64.zero_add _)

end Amounts

/-! ## Pages -/

section History

variable {env : Env} {w : Wollet} {txos : HashMap OutPoint WalletTxOut} {txs : List HistoryTx}

theorem reduceOption_eq_nil {l : List (Option WalletTxOut)} (hl : l.all (·.isNone) = true) :
    l.reduceOption = [] := by
  rw [reduceOption, filterMap_eq_nil_iff]
  intro u hu
  exact Option.isNone_iff_eq_none.1 (all_eq_true.1 hl u hu)

theorem historyTx_ok {t : Txid} {e : Option HistoryTx} (h : w.historyTx env txos t = .ok e) :
    ∃ tx, w.disk.txs.lookup t = some tx ∧
      ((e = none ∧ (txInputs tx txos).reduceOption = [] ∧ (txOutputs t tx txos).reduceOption = []) ∨
        ∃ entry, e = some entry ∧ entry.toWalletTx = w.walletTx txos t tx ∧
          entry.balance = txBalance t tx txos) := by
  unfold historyTx at h
  cases htx : w.disk.txs.lookup t with
  | none =>
    rw [htx] at h
    cases h
  | some tx =>
    rw [htx] at h
    refine ⟨tx, rfl, ?_⟩
    dsimp only at h
    split_ifs at h with hskip
    · cases h
      rw [Bool.and_eq_true, Bool.and_eq_true] at hskip
      exact .inl ⟨rfl, reduceOption_eq_nil hskip.1.2, reduceOption_eq_nil hskip.2⟩
    · cases h
      exact .inr ⟨_, rfl, rfl, rfl⟩

theorem transactionsOf_eq (env : Env) (w : Wollet) (txos : HashMap OutPoint WalletTxOut)
    (ts : List Txid) : w.transactionsOf txos ts =
      (ts.mapM (w.historyTx env txos)).map fun es => es.reduceOption.map HistoryTx.toWalletTx := by
  induction ts with
  | nil => rfl
  | cons t ts ih =>
    rw [transactionsOf, mapM_cons, historyTx]
    cases w.disk.txs.lookup t with
    | none => rfl
    | some tx =>
      have hskip : ((txBalance t tx txos).entries.isEmpty && (txInputs tx txos).all (·.isNone) &&
          (txOutputs t tx txos).all (·.isNone)) =
          ((txInputs tx txos).all (·.isNone) && (txOutputs t tx txos).all (·.isNone)) := by
        -- with no output booked the balance is empty, so its test adds nothing
        rw [Bool.and_assoc, Bool.and_eq_right_iff_imp, Bool.and_eq_true]
        rintro ⟨hinputs, houtputs⟩
        rw [txBalance, reduceOption_eq_nil hinputs, reduceOption_eq_nil houtputs]
        rfl
      dsimp only [walletTx]
      rw [ih, hskip]
      cases ts.mapM (w.historyTx env txos) <;> split_ifs <;> rfl

theorem transactionsPaginated_slice {entries : List (Option HistoryTx)}
    (htxos : w.txosMap = .ok txos)
    (hentries : List.Forall₂ (fun t e => w.historyTx env txos t = .ok e) w.cache.sortedTxids
      entries) (offset limit : Nat) : w.transactionsPaginated env offset limit =
      .ok ((entries.drop offset).take limit).reduceOption := by
  have hslice := forall₂_take limit (forall₂_drop offset hentries)
  rw [transactionsPaginated, htxos]
  show ((((w.cache.sortedTxids.drop offset).take limit).mapM (w.historyTx env txos)).bind
    fun txs => .ok txs.reduceOption) = _
  rw [mapM_ok_of_forall₂ hslice]
  rfl

/-- A transaction of height `a` is listed before one of height `b`: the unconfirmed ones come
first, and then the higher ones. The height `u32::MAX`, which no block has, counts as
unconfirmed. -/
def NotBelow : Option Height → Option Height → Prop
  | none, _ => True
  | some h, some h' => h' ≤ h
  | some h, none => h = 0xffffffff

theorem notBelow_of_comesBefore {heights : HashMap Txid (Option Height)} {a b : Txid}
    (h : comesBefore heights a b) :
    NotBelow ((heights.lookup a).getD none) ((heights.lookup b).getD none) := by
  have hle : ((heights.lookup b).getD none).getD 0xffffffff ≤
      ((heights.lookup a).getD none).getD 0xffffffff := by
    rcases h with h | ⟨h, -⟩
    · exact UInt32.le_of_lt h
    · exact UInt32.le_of_eq h
  cases ha : (heights.lookup a).getD none with
  | none => trivial
  | some h =>
    rw [ha] at hle
    cases hb : (heights.lookup b).getD none with
    | none =>
      rw [hb] at hle
      have hmax : h ≤ 0xffffffff := UInt32.le_iff_toNat_le.2 (Nat.le_of_lt_succ h.toNat_lt)
      exact UInt32.le_antisymm hmax hle
    | some h' =>
      rw [hb] at hle
      exact hle

theorem history_sublist {ts : List Txid} {entries : List (Option HistoryTx)}
    (h : List.Forall₂ (fun t e => w.historyTx env txos t = .ok e) ts entries) :
    (entries.reduceOption.map (·.txid)).Sublist ts ∧
      ∀ e ∈ entries.reduceOption, e.height = (w.cache.heights.lookup e.txid).getD none := by
  induction h with
  | nil => exact ⟨.slnil, fun e he => absurd he not_mem_nil⟩
  | cons hentry _ ih =>
    obtain ⟨tx, -, ⟨rfl, -⟩ | ⟨entry, rfl, hwtx, -⟩⟩ := historyTx_ok hentry
    · exact ⟨ih.1.cons _, ih.2⟩
    · rw [reduceOption_cons_of_some, map_cons]
      have htxid : entry.txid = _ := congrArg WalletTx.txid hwtx
      have hheight : entry.height = _ := congrArg WalletTx.height hwtx
      refine ⟨?_, ?_⟩
      · rw [htxid]
        exact ih.1.cons_cons _
      · intro e he
        rcases mem_cons.1 he with rfl | he
        · rw [hheight, htxid]
          rfl
        · exact ih.2 e he

variable (hvec : w.cache.sortedTxids.length ≤ usizeMax) (h : w.history env = .ok txs)

include hvec h

theorem history_ok :
    ∃ txos entries, w.txosMap = .ok txos ∧
      List.Forall₂ (fun t e => w.historyTx env txos t = .ok e) w.cache.sortedTxids entries ∧
      entries.reduceOption = txs := by
  obtain ⟨txos, htxos, h⟩ := except_bind_ok_iff.1 h
  obtain ⟨entries, hentries, h⟩ := except_bind_ok_iff.1 h
  cases h
  rw [drop_zero, take_of_length_le hvec] at hentries
  exact ⟨txos, entries, htxos, mapM_ok_forall₂ hentries, rfl⟩

/-- **Pages.** Of any size, as many as it takes, they are the history in order. -/
theorem history_pages {size n : Nat} (hn : w.cache.sortedTxids.length ≤ n * size) :
    ∃ pages, ((List.range n).mapM fun i => w.transactionsPaginated env (i * size) size) =
      .ok pages ∧ pages.flatten = txs := by
  obtain ⟨txos, entries, htxos, hentries, rfl⟩ := history_ok hvec h
  have hslices (n : Nat) : ((range n).map fun i =>
      ((entries.drop (i * size)).take size).reduceOption).flatten =
        (entries.take (n * size)).reduceOption := by
    induction n with
    | zero => simp
    | succ n ih =>
      rw [range_succ, map_append, flatten_append, ih, Nat.succ_mul, take_add,
        reduceOption_append, map_singleton, flatten_singleton]
  refine ⟨_, ?_, (hslices n).trans ?_⟩
  · apply mapM_ok_of_forall₂
    rw [forall₂_map_right_iff, forall₂_same]
    intro i _
    exact transactionsPaginated_slice htxos hentries _ _
  · rw [take_of_length_le]
    rw [← hentries.length_eq]
    exact hn

/-- **Order.** In a wallet whose ids are sorted, so is the history. -/
theorem history_ordered (hsorted : w.cache.sortedTxids = rebuildSortedTxids w.cache.heights) :
    txs.Pairwise fun a b => NotBelow a.height b.height := by
  obtain ⟨txos, entries, htxos, hentries, rfl⟩ := history_ok hvec h
  obtain ⟨hsub, hheights⟩ := history_sublist hentries
  have hpairwise : w.cache.sortedTxids.Pairwise (comesBefore w.cache.heights) := by
    rw [hsorted]
    exact pairwise_insertionSort _ _
  have hids := pairwise_map.1 (hpairwise.sublist hsub)
  refine hids.imp_of_mem fun {a b} ha hb hab => ?_
  rw [hheights a ha, hheights b hb]
  exact notBelow_of_comesBefore hab

end History

/-! ## Sums -/

namespace Wollet

/-- The outpoints a stored transaction creates. -/
def createsOf (w : Wollet) (t : Txid) : List OutPoint :=
  ((w.disk.txs.lookup t).map (Transaction.creates t)).getD []

def spendsOf (w : Wollet) (t : Txid) : List OutPoint :=
  ((w.disk.txs.lookup t).map Transaction.spends).getD []

end Wollet

/-- No outpoint is an input twice among the listed transactions. -/
def SpendsOnce (w : Wollet) : Prop := (w.cache.sortedTxids.flatMap w.spendsOf).Nodup

instance (w : Wollet) : Decidable (SpendsOnce w) :=
  inferInstanceAs (Decidable (List.Nodup _))

/-- What each transaction brings fits in an `i64`, and so does what is unspent. -/
structure SumsFit (w : Wollet) : Prop where
  net : ∀ txos, w.txosMap = .ok txos → ∀ t ∈ w.cache.sortedTxids, ∀ tx,
    w.disk.txs.lookup t = some tx → ∀ a, -2 ^ 63 ≤ netOf txos a t tx ∧ netOf txos a t tx < 2 ^ 63
  unspent : ∀ utxos, w.cache.utxos = .ok utxos → ∀ a,
    (utxos.map (WalletTxOut.amountOf a)).sum < 2 ^ 63

section Sums

variable {env : Env} {w : Wollet} {txos : HashMap OutPoint WalletTxOut} {a : AssetId}

theorem sum_history {ts : List Txid} {entries : List (Option HistoryTx)}
    (hentries : List.Forall₂ (fun t e => w.historyTx env txos t = .ok e) ts entries)
    (hfit : ∀ t ∈ ts, ∀ tx, w.disk.txs.lookup t = some tx →
      -2 ^ 63 ≤ netOf txos a t tx ∧ netOf txos a t tx < 2 ^ 63) :
    (entries.reduceOption.map fun e => ((e.balance.lookup a).getD 0).toInt).sum =
      (ts.map fun t => ((w.createsOf t).map (amountAt txos a)).sum -
        ((w.spendsOf t).map (amountAt txos a)).sum).sum := by
  induction hentries with
  | nil => rfl
  | @cons t e ts entries hentry _ ih =>
    have hrest := ih fun t ht => hfit t (mem_cons_of_mem _ ht)
    obtain ⟨tx, htx, hcase⟩ := historyTx_ok hentry
    have hnet : ((w.createsOf t).map (amountAt txos a)).sum -
        ((w.spendsOf t).map (amountAt txos a)).sum = netOf txos a t tx := by
      rw [createsOf, spendsOf, htx]
      rfl
    rw [map_cons, sum_cons, hnet]
    rcases hcase with ⟨rfl, hinputs, houtputs⟩ | ⟨entry, rfl, -, hbalance⟩
    · rw [reduceOption_cons_of_none, hrest, netOf, ← sum_txOutputs, ← sum_txInputs, hinputs,
        houtputs]
      simp
    · obtain ⟨hlow, hhigh⟩ := hfit t mem_cons_self tx htx
      rw [reduceOption_cons_of_some, map_cons, sum_cons, hrest, hbalance,
        getD_lookup_txBalance, Int64.toInt_ofInt_of_le hlow hhigh]

theorem ofInt_toNat (v : UInt64) : UInt64.ofInt v.toNat = v := by
  have hlt := v.toNat_lt
  have hmod : ((v.toNat : Int) % 2 ^ 64).toNat = v.toNat := by omega
  rw [UInt64.ofInt, hmod, UInt64.ofNat_toNat]

theorem toNat_ofInt {n : Int} (hlow : 0 ≤ n) (hhigh : n < 2 ^ 63) :
    ((UInt64.ofInt n).toNat : Int) = n := by
  rw [UInt64.ofInt, UInt64.toNat_ofNat']
  omega

theorem getD_lookup_balance (policyAsset : AssetId) (utxos : List WalletTxOut) :
    ((utxos.foldl (fun r u =>
      r.insert u.unblinded.asset ((r.lookup u.unblinded.asset).getD 0 + u.unblinded.value))
        ((∅ : HashMap AssetId UInt64).insert policyAsset 0)).lookup a).getD 0 =
      UInt64.ofInt (utxos.map (WalletTxOut.amountOf a)).sum := by
  have hzero (x : UInt64) : x + UInt64.ofInt 0 = x := UInt64.add_zero x
  have hadd (u : WalletTxOut) (x : UInt64) :
      x + u.unblinded.value = x + UInt64.ofInt u.unblinded.value.toNat := by
    rw [ofInt_toNat]
  show ((utxos.foldl (fun (r : HashMap AssetId UInt64) u =>
      r.entry u.unblinded.asset 0 (· + u.unblinded.value))
        ((∅ : HashMap AssetId UInt64).entry policyAsset 0 fun _ => 0)).lookup a).getD 0 = _
  rw [HashMap.getD_lookup_tally UInt64.add_assoc hzero UInt64.ofInt_add hadd,
    HashMap.getD_lookup_entry]
  have hstart : (if policyAsset = a then (0 : UInt64) else
      ((∅ : HashMap AssetId UInt64).lookup a).getD 0) = 0 := ite_self 0
  rw [hstart, UInt64.zero_add]
  rfl

theorem balance_ok {b : HashMap AssetId UInt64} (hfit : SumsFit w)
    (h : w.cache.balance env = .ok b) : ∃ utxos, w.cache.utxosInner = .ok utxos ∧
      ∀ a, (((b.lookup a).getD 0).toNat : Int) = (utxos.map (WalletTxOut.amountOf a)).sum := by
  obtain ⟨sorted, hsorted, h⟩ := except_bind_ok_iff.1 h
  cases h
  have hfits := hfit.unspent sorted hsorted
  obtain ⟨utxos, hutxos, hsorted⟩ := except_bind_ok_iff.1 hsorted
  cases hsorted
  refine ⟨utxos, hutxos, fun a => ?_⟩
  have hperm := (perm_insertionSort
    (fun u v : WalletTxOut => v.unblinded.value ≤ u.unblinded.value) utxos).map
      (WalletTxOut.amountOf a)
  rw [getD_lookup_balance, ← hperm.sum_eq]
  refine toNat_ofInt (sum_nonneg fun v hv => ?_) (hfits a)
  obtain ⟨u, -, rfl⟩ := mem_map.1 hv
  rw [WalletTxOut.amountOf]
  split_ifs
  · exact Int.natCast_nonneg _
  · exact le_rfl

theorem ownOutput_of_utxoAt {e : OutPoint × Script} {u : WalletTxOut} (hexact : UnspentExact w)
    (he : w.cache.unspent.lookup e.1 = some e.2) (hu : w.cache.utxoAt e = .ok u) :
    ∃ v, w.ownOutput e.1 = some v ∧ v.unblinded = u.unblinded := by
  obtain ⟨-, -, hscript, -, -⟩ := (hexact e.1 e.2).1 he
  obtain ⟨tx, htx, hscript⟩ := Option.bind_eq_some_iff.1 hscript
  obtain ⟨out, hout, hspk⟩ := Option.map_eq_some_iff.1 hscript
  obtain ⟨-, -, hunblinded, hindex, haddress⟩ := utxoAt_ok hu
  rw [← hspk] at hindex haddress
  have htxo : ∃ v, w.cache.txoAt e.1.txid (out, e.1.vout) = some v := by
    simp only [txoAt, hunblinded, hindex, haddress, Except.toOption, Option.bind_eq_bind,
      Option.bind_some]
    exact ⟨_, rfl⟩
  obtain ⟨v, hv⟩ := htxo
  have hsame := (txoAt_some hv).2.2.2.1
  exact ⟨v, ownOutput_eq_some.2 ⟨tx, out, htx, hout, hv⟩,
    Option.some.inj (hsame.symm.trans hunblinded)⟩

theorem sum_utxosInner {utxos : List WalletTxOut} (hexact : UnspentExact w)
    (hsorted : w.cache.sortedTxids = rebuildSortedTxids w.cache.heights)
    (htxos : w.txosMap = .ok txos) (h : w.cache.utxosInner = .ok utxos) :
    (utxos.map (WalletTxOut.amountOf a)).sum =
      (w.cache.unspent.keys.map (amountAt txos a)).sum := by
  have hkeys : w.cache.unspent.keys = utxos.map (·.outpoint) := by
    have hpairs := mapM_ok_map (g := fun u : WalletTxOut => (u.outpoint, u.scriptPubkey))
      (fun e u hu => by rw [(utxoAt_ok hu).1, (utxoAt_ok hu).2.1]) h
    rw [← HashMap.toPairs_fst, ← hpairs, map_map]
    rfl
  rw [hkeys, map_map]
  refine congrArg sum (map_congr_left fun u hu => ?_)
  obtain ⟨e, he, hutxo⟩ := mapM_ok_mem h u hu
  have hlookup := HashMap.mem_toPairs.1 he
  obtain ⟨v, hown, hsame⟩ := ownOutput_of_utxoAt hexact hlookup hutxo
  have hlisted : e.1.txid ∈ w.cache.sortedTxids := by
    rw [hsorted, mem_rebuildSortedTxids]
    exact ((hexact _ _).1 hlookup).2.1
  rw [Function.comp_apply, (utxoAt_ok hutxo).1, amountAt,
    (lookup_txosMap htxos).2 ⟨hlisted, hown⟩, Option.map_some, Option.getD_some,
    WalletTxOut.amountOf, WalletTxOut.amountOf, hsame]

theorem nodup_creates (hnodup : w.cache.sortedTxids.Nodup) :
    (w.cache.sortedTxids.flatMap w.createsOf).Nodup := by
  have htxid (t : Txid) (o : OutPoint) (ho : o ∈ w.createsOf t) : o.txid = t := by
    unfold createsOf at ho
    cases htx : w.disk.txs.lookup t with
    | none =>
      rw [htx] at ho
      exact absurd ho not_mem_nil
    | some tx =>
      rw [htx] at ho
      obtain ⟨vout, -, rfl⟩ := mem_map.1 ho
      rfl
  rw [nodup_flatMap]
  constructor
  · intro t _
    unfold createsOf
    cases w.disk.txs.lookup t with
    | none => exact nodup_nil
    | some tx => exact nodup_range.map fun i j hij => (OutPoint.mk.inj hij).2
  · refine hnodup.imp fun {s t} hne o hs ht => hne ?_
    rw [← htxid s o hs, ← htxid t o ht]

theorem mem_spendsOf {t : Txid} {o : OutPoint} : o ∈ w.spendsOf t ↔ SpentBy w.disk.txs t o := by
  unfold spendsOf SpentBy
  cases w.disk.txs.lookup t with
  | none => simp
  | some tx => simp

/-- **History and balance agree where the unspent map is exact.** -/
theorem history_sum_eq_balance {b : HashMap AssetId UInt64} {txs : List HistoryTx}
    (hexact : UnspentExact w) (hsorted : w.cache.sortedTxids = rebuildSortedTxids w.cache.heights)
    (hvec : w.cache.sortedTxids.length ≤ usizeMax) (honce : SpendsOnce w) (hfit : SumsFit w)
    (hbalance : w.cache.balance env = .ok b) (htxs : w.history env = .ok txs) (a : AssetId) :
    (txs.map fun e => ((e.balance.lookup a).getD 0).toInt).sum = ((b.lookup a).getD 0).toNat := by
  obtain ⟨txos, entries, htxos, hentries, rfl⟩ := history_ok hvec htxs
  obtain ⟨utxos, hutxos, hb⟩ := balance_ok hfit hbalance
  have hmem (t : Txid) : t ∈ w.cache.sortedTxids ↔ t ∈ w.cache.heights := by
    rw [hsorted, mem_rebuildSortedTxids]
  have hnodup : w.cache.sortedTxids.Nodup := by
    rw [hsorted]
    exact (perm_insertionSort _ _).nodup_iff.2 w.cache.heights.keys_nodup
  -- an outpoint with an amount is a wallet output of a listed transaction
  have hown (o : OutPoint) (hvalue : amountAt txos a o ≠ 0) :
      ∃ u, u.outpoint = o ∧ o.txid ∈ w.cache.sortedTxids ∧ w.ownOutput u.outpoint = some u := by
    cases hlookup : txos.lookup o with
    | none =>
      rw [amountAt, hlookup] at hvalue
      exact absurd rfl hvalue
    | some u =>
      obtain ⟨hlisted, hown⟩ := (lookup_txosMap htxos).1 hlookup
      have houtpoint := ownOutput_outpoint hown
      exact ⟨u, houtpoint, hlisted, houtpoint.symm ▸ hown⟩
  have hcreated (o : OutPoint) (hvalue : amountAt txos a o ≠ 0) :
      o ∈ w.cache.sortedTxids.flatMap w.createsOf := by
    obtain ⟨u, rfl, hlisted, hu⟩ := hown o hvalue
    obtain ⟨tx, out, htx, hout, -⟩ := ownOutput_eq_some.1 hu
    refine mem_flatMap.2 ⟨_, hlisted, ?_⟩
    rw [createsOf, htx]
    exact List.mem_map.2 ⟨_, List.mem_range.2 (List.getElem?_eq_some_iff.1 hout).1, rfl⟩
  rw [hb, sum_utxosInner hexact hsorted htxos hutxos,
    sum_history hentries fun t ht tx htx => hfit.net txos htxos t ht tx htx a]
  refine Ledger.sum_net (nodup_creates hnodup) honce w.cache.unspent.keys_nodup
    (fun o _ hvalue => hcreated o hvalue) fun o hvalue => ?_
  rw [and_iff_right (hcreated o hvalue)]
  obtain ⟨u, rfl, hlisted, hu⟩ := hown o hvalue
  rw [← AList.mem_keys, hexact.mem_iff hu ((hmem _).1 hlisted), mem_flatMap, not_exists]
  refine forall_congr' fun t => ?_
  rw [hmem, mem_spendsOf, not_and]

end Sums

/-! ## Runs -/

/-- `Applied env U calls w`: the calls take a wallet with an empty cache to `w`. Each is listed
with the wallet it was made on. The store holds transactions of `U` under their ids. -/
inductive Applied (env : Env) (U : Set Transaction) : List (Wollet × Update) → Wollet → Prop
  | start (disk : Disk) (hdisk : Keyed env U disk.txs) : Applied env U [] (.fresh disk)
  | call {calls : List (Wollet × Update)} {w w' : Wollet} {u : Update}
      (h : Applied env U calls w) (hcall : Change env w u w') :
      Applied env U (calls ++ [(w, u)]) w'

section Runs

variable {env : Env} {U : Set Transaction} {calls : List (Wollet × Update)} {w w' : Wollet}
  {u : Update}

theorem Applied.sorted (h : Applied env U calls w) :
    w.cache.sortedTxids = rebuildSortedTxids w.cache.heights := by
  cases h with
  | start disk hdisk => rfl
  | call h hcall =>
    obtain ⟨scripts, -, hcache, -⟩ := applyUpdate_ok hcall.applyUpdate
    rw [hcache, applied_sortedTxids, applied_heights]

/-- A call that keeps the unspent map exact: its update belongs to the wallet's transactions, and
it puts nothing stale back. -/
def Clean (env : Env) (U : Set Transaction) (call : Wollet × Update) : Prop :=
  Fits env U call.1.cache call.2 ∧ NothingStale call.1 call.2

/-- **Clean calls keep the unspent map exact**, whatever their order. -/
theorem Applied.exact (hutxo : env.utxoOnly = false) (hb : env.Binds U)
    (h : Applied env U calls w) (hclean : ∀ call ∈ calls, Clean env U call) :
    Sound env U w ∧ UnspentExact w := by
  induction h with
  | start disk hdisk => exact ⟨sound_fresh hdisk, unspentExact_fresh disk⟩
  | @call calls w w' u _ hcall ih =>
    obtain ⟨hsound, hexact⟩ := ih fun call hmem => hclean call (mem_append_left _ hmem)
    obtain ⟨hfits, hstale⟩ := hclean (w, u) (mem_append_right _ (mem_singleton.2 rfl))
    obtain ⟨scripts, ha, hcache, htxs⟩ := applyUpdate_ok hcall.applyUpdate
    exact ⟨hsound.step hb hfits hcache htxs ha,
      (unspentExact_step_iff hb hsound hfits hcache htxs hutxo ha hexact).2 hstale⟩

/-- **History and balance.** Take any run of successful calls on a wallet that keeps its
transactions. The pages of the history are the history, whatever their size, and the history is
sorted by height with the unconfirmed transactions first. When the calls are clean and no outpoint
is an input twice, what the history adds up to is the balance, asset by asset. -/
theorem history_agrees (hutxo : env.utxoOnly = false) (hb : env.Binds U)
    (h : Applied env U calls w) (hvec : w.cache.sortedTxids.length ≤ usizeMax)
    (honce : SpendsOnce w) (hfit : SumsFit w) {b : HashMap AssetId UInt64} {txs : List HistoryTx}
    (hbalance : w.cache.balance env = .ok b) (htxs : w.history env = .ok txs) :
    ((∀ call ∈ calls, Clean env U call) → ∀ a,
      (txs.map fun e => ((e.balance.lookup a).getD 0).toInt).sum = ((b.lookup a).getD 0).toNat) ∧
    (∀ size n, w.cache.sortedTxids.length ≤ n * size →
      ∃ pages, ((List.range n).mapM fun i => w.transactionsPaginated env (i * size) size) =
        .ok pages ∧ pages.flatten = txs) ∧
    txs.Pairwise fun e e' => NotBelow e.height e'.height := by
  refine ⟨fun hclean a => ?_, fun size n hn => history_pages hvec htxs hn,
    history_ordered hvec htxs h.sorted⟩
  obtain ⟨-, hexact⟩ := h.exact hutxo hb hclean
  exact history_sum_eq_balance hexact h.sorted hvec honce hfit hbalance htxs a

end Runs

/-! ## A spent output that counts -/

namespace Recounted

open Relisted

theorem applied_before : Applied env {parent, child} [(.fresh .empty, first)] before := by
  have hstart : Applied env {parent, child} [] (.fresh .empty) :=
    .start .empty fun t tx h => absurd h (by simp [Disk.empty])
  exact hstart.call (.update rfl)

theorem applied_after :
    Applied env {parent, child} [(.fresh .empty, first), (before, second)] after :=
  applied_before.call (.update rfl)

theorem sumsFit {w : Wollet} {txos : HashMap OutPoint WalletTxOut} {utxos : List WalletTxOut}
    (hids : w.cache.sortedTxids = [1, 0]) (hparent : w.disk.txs.lookup 0 = some parent)
    (hchild : w.disk.txs.lookup 1 = some child) (htxos : w.txosMap = .ok txos)
    (hamount : ∀ a, amountAt txos a ⟨0, 0⟩ = if 1 = a then 1000 else 0)
    (hother : ∀ a, amountAt txos a ⟨1, 0⟩ = 0) (hutxos : w.cache.utxos = .ok utxos)
    (hunspent : ∀ a, (utxos.map (WalletTxOut.amountOf a)).sum ≤ 1000) : SumsFit w := by
  refine ⟨?_, ?_⟩
  · intro txos' htxos' t ht tx htx a
    cases htxos.symm.trans htxos'
    rw [hids] at ht
    simp only [mem_cons, not_mem_nil, or_false] at ht
    rcases ht with rfl | rfl
    · cases hchild.symm.trans htx
      have hnet : netOf txos a 1 child =
          amountAt txos a ⟨1, 0⟩ + 0 - (amountAt txos a ⟨0, 0⟩ + 0) := rfl
      rw [hnet, hamount, hother]
      split_ifs <;> decide
    · cases hparent.symm.trans htx
      have hnet : netOf txos a 0 parent = amountAt txos a ⟨0, 0⟩ + 0 - 0 := rfl
      rw [hnet, hamount]
      split_ifs <;> decide
  · intro utxos' hutxos' a
    cases hutxos.symm.trans hutxos'
    have := hunspent a
    omega

theorem sumsFit_after : SumsFit after := by
  refine sumsFit rfl rfl rfl rfl (fun a => rfl) (fun a => rfl) rfl fun a => ?_
  show (if 1 = a then (1000 : Int) else 0) + 0 ≤ 1000
  split_ifs <;> decide

theorem sumsFit_before : SumsFit before := by
  refine sumsFit rfl rfl rfl rfl (fun a => rfl) (fun a => rfl) rfl fun a => ?_
  show (0 : Int) ≤ 1000
  decide

/-- After the second scan the history adds up to nothing and the balance is what was spent. -/
theorem history_recounted :
    Applied env {parent, child} [(.fresh .empty, first), (before, second)] after ∧
      SpendsOnce after ∧ SumsFit after ∧ after.cache.sortedTxids.length ≤ usizeMax ∧
      ∃ b txs, after.cache.balance env = .ok b ∧ after.history env = .ok txs ∧
        ((b.lookup 1).getD 0).toNat = 1000 ∧
        (txs.map fun e => ((e.balance.lookup 1).getD 0).toInt).sum = 0 :=
  ⟨applied_after, by decide, sumsFit_after, by decide, _, _, rfl, rfl, rfl, rfl⟩

theorem clean_first : ∀ call ∈ [(Wollet.fresh .empty, first)], Clean env {parent, child} call := by
  intro call hcall
  cases mem_singleton.1 hcall
  obtain ⟨history, hscan⟩ := fullScanToIndex_scanUpdate (Concrete.server_faithful _ _ _ _)
    (show fullScanToIndex env (server 4 0) (.fresh .empty) 0 = .ok (some first) from rfl)
  have htxs : first.newTxs.txs = [(1, child), (0, parent)] := rfl
  have hdelete : first.txidHeightDelete = [] := rfl
  have hkeyed : Keyed env {parent, child} Disk.empty.txs :=
    fun t tx h => absurd h (by simp [Disk.empty])
  refine ⟨hscan.fits (sound_fresh hkeyed) (by simp [htxs]), ?_⟩
  intro o ho hput hnew hdel
  rcases hput with hlisted | ⟨t, ht, -⟩
  · exact ⟨.inl hlisted, fun t ht => absurd ht (AList.notMem_empty t)⟩
  · rw [hdelete] at ht
    exact absurd ht not_mem_nil

/-- After the first scan both are zero. -/
theorem history_agrees_before : ∃ b txs, before.cache.balance env = .ok b ∧
    before.history env = .ok txs ∧
    (∀ a, (txs.map fun e => ((e.balance.lookup a).getD 0).toInt).sum =
      ((b.lookup a).getD 0).toNat) ∧
    txs.Pairwise fun e e' => NotBelow e.height e'.height := by
  obtain ⟨hsum, -, hordered⟩ := history_agrees rfl binds applied_before (by decide) (by decide)
    sumsFit_before rfl rfl
  exact ⟨_, _, rfl, rfl, hsum clean_first, hordered⟩

end Recounted

end Swk
