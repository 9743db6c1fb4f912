import Mathlib.Data.List.Sort
import Swk.HashMap
import Swk.Descriptor

/-!
# The wallet cache

`Cache`, following `cache.rs`: what the wallet knows of the chain, all of it computed from the
updates applied so far. Hash maps are `HashMap`s, whose list order is the iteration order, so a
statement about every cache is one about every order. The transactions themselves live in a
store next to the cache; functions that read it take it as an argument.

The heart is `updateUnspent`: four edits in a fixed order keep the map of unspent outputs
current as transactions are listed and deleted. `lookup_updateUnspent` says what they amount to
at one outpoint.
-/

namespace Swk

/-- `BATCH_SIZE`: how many scripts are derived at a time. -/
def batchSize : UInt32 := 20

/-- The transactions in the transaction store, by txid. -/
abbrev TxsStore := HashMap Txid Transaction

/-- A cache of wallet data, fully reconstructable from the descriptor and the blockchain. -/
structure Cache where
  txids : Finset Txid
  /-- All my scripts up to an empty batch. -/
  paths : HashMap Script (Chain × ChildNumber)
  /-- Inverse of `paths`, with the blinding public key of each script. -/
  scripts : HashMap (Chain × ChildNumber) (Script × Option PublicKey)
  /-- Only my wallet txs, with their heights (`none` if unconfirmed). -/
  heights : HashMap Txid (Option Height)
  /-- Txids by height descending, then txid descending, unconfirmed first. -/
  sortedTxids : List Txid
  unspent : HashMap OutPoint Script
  unblinded : HashMap OutPoint TxOutSecrets
  tip : Height × BlockHash
  timestamps : HashMap Height Timestamp
  lastUnusedExternal : UInt32
  lastUnusedInternal : UInt32

namespace Cache

def default : Cache where
  txids := ∅
  paths := ∅
  scripts := ∅
  heights := ∅
  sortedTxids := []
  unspent := ∅
  unblinded := ∅
  tip := (0, 0)
  timestamps := ∅
  lastUnusedExternal := 0
  lastUnusedInternal := 0

/-! ## Scripts -/

def fromNormalIdx (index : UInt32) : Except Error ChildNumber :=
  if index < 0x80000000 then .ok (.normal index) else .error .bitcoinBip32Error

/-- `get_or_derive`: the script at a path, its blinding key and whether it was cached. -/
def getOrDerive (secp : Secp) (descriptor : WolletDescriptor) (c : Cache) (extInt : Chain)
    (child : ChildNumber) : Except Error (Script × Option PublicKey × Bool) :=
  match c.scripts.lookup (extInt, child) with
  | some (script, pubkey) => .ok (script, pubkey, true)
  | none => do
      let r ← descriptor.deriveScriptAndBlindingKey secp extInt child
      pure (r.1, r.2, false)

/-- A batch of scripts with their paths and blinding keys. -/
structure ScriptBatch where
  cached : Bool
  value : List (Script × (Chain × ChildNumber × Option PublicKey))

/-- The loop of `get_script_batch`. The batch counts as cached when its last script is. -/
def deriveBatch (secp : Secp) (descriptor : WolletDescriptor) (c : Cache) (extInt : Chain) :
    List UInt32 → ScriptBatch → Except Error ScriptBatch
  | [], result => .ok result
  | j :: js, result => do
      let child ← fromNormalIdx j
      let r ← c.getOrDerive secp descriptor extInt child
      deriveBatch secp descriptor c extInt js
        ⟨r.2.2, result.value ++ [(r.1, (extInt, child, r.2.1))]⟩

/-- The numbers of a `u32` range `start..end`. -/
def u32Range (start stop : UInt32) : List UInt32 :=
  (List.range (stop.toNat - start.toNat)).map fun i => start + UInt32.ofNat i

/-- `get_script_batch`: twenty scripts of a descriptor's chain, or all scripts of a wallet
without descriptor in batch 0. -/
def getScriptBatch (secp : Secp) (descriptor : WolletDescriptor) (c : Cache) (batch : UInt32)
    (extInt : Chain) : Except Error ScriptBatch :=
  match descriptor.spkCount with
  | some count =>
    if batch > 0 then .ok ⟨true, []⟩
    else deriveBatch secp descriptor c .external (u32Range 0 (UInt32.ofNat count)) ⟨true, []⟩
  | none =>
    let start := batch * batchSize
    deriveBatch secp descriptor c extInt (u32Range start (start + batchSize)) ⟨true, []⟩

/-! ## Transactions -/

variable (c : Cache) (store : TxsStore) (txs : List (Txid × Transaction))
  (heights : HashMap Txid (Option Height))

/-- `tx_as_fallback`: from the transactions at hand, else from the store. -/
def txAsFallback (txid : Txid) : Option Transaction :=
  ((txs.find? fun e => e.1 = txid).map (·.2)).or (store.lookup txid)

def outpointScript (o : OutPoint) : Option Script :=
  (txAsFallback store txs o.txid).bind fun tx => tx.scriptAt o.vout

/-- The order of `rebuild_sorted_txids`: height descending with unconfirmed first, then txid
descending. -/
def comesBefore (a b : Txid) : Prop :=
  let h := fun t => ((heights.lookup t).getD none).getD 0xffffffff
  h b < h a ∨ h b = h a ∧ b ≤ a

instance (heights : HashMap Txid (Option Height)) : DecidableRel (comesBefore heights) :=
  fun a b => inferInstanceAs (Decidable (_ ∨ _ ∧ b ≤ a))

def rebuildSortedTxids : List Txid :=
  heights.keys.insertionSort (comesBefore heights)

theorem mem_rebuildSortedTxids {heights : HashMap Txid (Option Height)} {t : Txid} :
    t ∈ rebuildSortedTxids heights ↔ t ∈ heights := by
  rw [rebuildSortedTxids, List.mem_insertionSort, AList.mem_keys]

/-- `update_heights`: delete, then insert. -/
def updateHeights (new : List (Txid × Option Height))
    (toDelete : List Txid) : HashMap Txid (Option Height) :=
  (heights.retain fun k _ => k ∉ toDelete).extend new

theorem mem_updateHeights {heights : HashMap Txid (Option Height)}
    {new : List (Txid × Option Height)} {del : List Txid} {t : Txid} :
    t ∈ updateHeights heights new del ↔ t ∈ new.map (·.1) ∨ t ∈ heights ∧ t ∉ del := by
  rw [updateHeights, HashMap.mem_extend, HashMap.mem_retain, decide_eq_true_eq,
    ← HashMap.lastValue_isSome, ← HashMap.mem_keys_iff]

/-! ## Unspent outputs -/

/-- The outpoints spent by the transactions with these txids, as far as they are known. -/
def inputsOf (ids : List Txid) : List OutPoint :=
  (ids.filterMap (txAsFallback store txs)).flatMap Transaction.spends

/-- Outpoints paired with their scripts, of those that pay the wallet. -/
def withScripts (ops : List OutPoint) : List (OutPoint × Script) :=
  (ops.filterMap fun op => (outpointScript store txs op).map fun s => (op, s)).filter
    fun e => e.2 ∈ c.paths

def updateUnspent (txidHeightNew : List (Txid × Option Height)) (deletedTxids : List Txid)
    (newTxs : List (Txid × Transaction)) : HashMap OutPoint Script :=
  let txidsNew := txidHeightNew.map (·.1)
  let outputsNew := c.withScripts store newTxs
    (c.unblinded.keys.filter fun op => op.txid ∈ txidsNew)
  let inputsNew := inputsOf store newTxs txidsNew
  let inputsToRestore := c.withScripts store newTxs
    ((inputsOf store newTxs deletedTxids).filter fun op => op ∈ c.unblinded)
  -- add outputs of new txs, then inputs of deleted txs (they are utxos now)
  let unspent := (c.unspent.extend outputsNew).extend inputsToRestore
  -- remove inputs of new txs (they are spent now), then outputs of deleted txs
  (unspent.retain fun o _ => o ∉ inputsNew).retain fun o _ => o.txid ∉ deletedTxids

/-- `update_unspent_utxos_only`: the server says what is unspent. -/
def updateUnspentUtxosOnly (unspent : List OutPoint)
    (txs : List (Txid × Transaction)) : HashMap OutPoint Script :=
  HashMap.ofPairs (unspent.filterMap fun op =>
    ((c.unspent.lookup op).or (outpointScript store txs op)).map fun script => (op, script))

/-! ## What the edits amount to -/

section Spec

variable {c : Cache} {store : TxsStore} {txs : List (Txid × Transaction)}

theorem mem_inputsOf {ids : List Txid} {o : OutPoint} : o ∈ inputsOf store txs ids ↔
      ∃ t ∈ ids, ∃ tx, txAsFallback store txs t = some tx ∧ o ∈ tx.spends := by
  simp only [inputsOf, List.mem_flatMap, List.mem_filterMap]
  constructor
  · rintro ⟨tx, ⟨t, ht, htx⟩, ho⟩
    exact ⟨t, ht, tx, htx, ho⟩
  · rintro ⟨t, ht, tx, htx, ho⟩
    exact ⟨tx, ⟨t, ht, htx⟩, ho⟩

/-- The script at which an outpoint pays the wallet. -/
def myScript (c : Cache) (store : TxsStore) (txs : List (Txid × Transaction)) (o : OutPoint) :
    Option Script :=
  (outpointScript store txs o).filter fun s => s ∈ c.paths

theorem withScripts_eq (ops : List OutPoint) : c.withScripts store txs ops =
    ops.filterMap fun op => (c.myScript store txs op).map fun s => (op, s) := by
  rw [withScripts, List.filter_filterMap]
  congr 1
  funext op
  rw [myScript]
  cases outpointScript store txs op <;> simp [Option.filter, apply_ite]

theorem lookup_updateUnspentUtxosOnly (unspent : List OutPoint) (o : OutPoint) :
    (c.updateUnspentUtxosOnly store unspent txs).lookup o =
      if o ∈ unspent then (c.unspent.lookup o).or (outpointScript store txs o) else none := by
  rw [updateUnspentUtxosOnly, HashMap.lookup_ofPairs]
  exact HashMap.lastValue_filterMap _ _ _

/-- The outpoints the update may add: unblinded outputs of listed transactions, and unblinded
inputs of deleted ones. -/
def Adds (c : Cache) (store : TxsStore) (new : List (Txid × Option Height)) (del : List Txid)
    (txs : List (Txid × Transaction)) (o : OutPoint) : Prop :=
  o ∈ c.unblinded ∧ (o.txid ∈ new.map (·.1) ∨ o ∈ inputsOf store txs del)

/-- The outpoints the update takes away: inputs of listed transactions and outputs of deleted
ones. -/
def Removes (store : TxsStore) (new : List (Txid × Option Height)) (del : List Txid)
    (txs : List (Txid × Transaction)) (o : OutPoint) : Prop :=
  o ∈ inputsOf store txs (new.map (·.1)) ∨ o.txid ∈ del

instance (new : List (Txid × Option Height)) (del : List Txid) (o : OutPoint) :
    Decidable (Adds c store new del txs o) :=
  inferInstanceAs (Decidable (_ ∧ _))

instance (new : List (Txid × Option Height)) (del : List Txid) (o : OutPoint) :
    Decidable (Removes store new del txs o) :=
  inferInstanceAs (Decidable (_ ∨ _))

/-- **The four edits at one outpoint**: removal wins, then an added output gets its script, and
everything else stays. -/
theorem lookup_updateUnspent (new : List (Txid × Option Height)) (del : List Txid) (o : OutPoint) :
    (c.updateUnspent store new del txs).lookup o =
      if Removes store new del txs o then none
      else if Adds c store new del txs o then
        (c.myScript store txs o).or (c.unspent.lookup o)
      else c.unspent.lookup o := by
  simp only [updateUnspent, HashMap.lookup_retain, HashMap.lookup_extend, withScripts_eq,
    HashMap.lastValue_filterMap,
    List.mem_filter, decide_eq_true_eq, ← AList.mem_keys]
  -- the two `retain`s are the removal
  have hfilter (x : Option Script) :
      (x.filter fun _ => decide (o ∉ inputsOf store txs (new.map (·.1)))).filter
        (fun _ => decide (o.txid ∉ del)) = if Removes store new del txs o then none else x := by
    by_cases hin : o ∈ inputsOf store txs (new.map (·.1)) <;> by_cases hdel : o.txid ∈ del <;>
      cases x <;> simp [Removes, hin, hdel, Option.filter]
  rw [hfilter]
  congr 1
  -- the two `extend`s put the same script, if any
  by_cases hun : o ∈ c.unblinded
  · by_cases hnew : o.txid ∈ new.map (·.1) <;> by_cases hres : o ∈ inputsOf store txs del <;>
      simp [Adds, hun, hnew, hres, ← Option.or_assoc]
  · simp [Adds, hun]

end Spec

end Cache

end Swk
