import Mathlib.Data.List.Sort
import Swk.Stored

/-!
# Caches with the same content

A hash map has no order that the wallet could observe, so two caches are as good as equal when
their maps answer every lookup alike (`Cache.Same`). Such caches have the same status, accept the
same updates, and stay the same after them (`Cache.Same.applied`).
-/

namespace Swk

namespace Cache

structure Same (c c' : Cache) : Prop where
  txids : c.txids = c'.txids
  paths : HashMap.Same c.paths c'.paths
  scripts : HashMap.Same c.scripts c'.scripts
  heights : HashMap.Same c.heights c'.heights
  sortedTxids : c.sortedTxids = c'.sortedTxids
  unspent : HashMap.Same c.unspent c'.unspent
  unblinded : HashMap.Same c.unblinded c'.unblinded
  tip : c.tip = c'.tip
  timestamps : HashMap.Same c.timestamps c'.timestamps
  lastUnusedExternal : c.lastUnusedExternal = c'.lastUnusedExternal
  lastUnusedInternal : c.lastUnusedInternal = c'.lastUnusedInternal

theorem Same.refl (c : Cache) : Same c c :=
  ⟨rfl, .refl _, .refl _, .refl _, rfl, .refl _, .refl _, rfl, .refl _, rfl, rfl⟩

theorem Same.symm {c c' : Cache} (h : Same c c') : Same c' c :=
  ⟨h.txids.symm, h.paths.symm, h.scripts.symm, h.heights.symm, h.sortedTxids.symm,
    h.unspent.symm, h.unblinded.symm, h.tip.symm, h.timestamps.symm,
    h.lastUnusedExternal.symm, h.lastUnusedInternal.symm⟩

theorem Same.trans {c c' c'' : Cache} (h : Same c c') (h' : Same c' c'') : Same c c'' :=
  ⟨h.txids.trans h'.txids, h.paths.trans h'.paths, h.scripts.trans h'.scripts,
    h.heights.trans h'.heights, h.sortedTxids.trans h'.sortedTxids, h.unspent.trans h'.unspent,
    h.unblinded.trans h'.unblinded, h.tip.trans h'.tip, h.timestamps.trans h'.timestamps,
    h.lastUnusedExternal.trans h'.lastUnusedExternal,
    h.lastUnusedInternal.trans h'.lastUnusedInternal⟩

/-- The status does not tell them apart. -/
theorem Same.statusView {c c' : Cache} (h : Same c c') : c.statusView = c'.statusView := by
  simp only [Cache.statusView, h.txids, h.paths.toFinset, h.scripts.toFinset,
    h.heights.toFinset, h.unblinded.toFinset, h.tip, h.timestamps.toFinset,
    h.lastUnusedExternal, h.lastUnusedInternal]

/-! ## The order of transactions -/

section Sorted

variable {heights heights' : HashMap Txid (Option Height)}

def sortKey (heights : HashMap Txid (Option Height)) (t : Txid) : Nat :=
  (((heights.lookup t).getD none).getD 0xffffffff).toNat * 2 ^ 256 + t.toNat

theorem comesBefore_iff {a b : Txid} :
    comesBefore heights a b ↔ sortKey heights b ≤ sortKey heights a := by
  have ha := a.isLt
  have hb := b.isLt
  simp only [comesBefore, sortKey, UInt32.lt_iff_toNat_lt, ← UInt32.toNat_inj, BitVec.le_def]
  omega

theorem sortKey_injective {a b : Txid} (h : sortKey heights a = sortKey heights b) : a = b := by
  have ha := a.isLt
  have hb := b.isLt
  simp only [sortKey] at h
  exact BitVec.eq_of_toNat_eq (by omega)

instance : IsTrans Txid (comesBefore heights) where
  trans := fun a b d hab hbd => by
    rw [comesBefore_iff] at hab hbd ⊢
    exact le_trans hbd hab

instance : Std.Total (comesBefore heights) where
  total := fun a b => by
    rw [comesBefore_iff, comesBefore_iff]
    exact le_total _ _

instance : Std.Antisymm (comesBefore heights) where
  antisymm := fun a b hab hba => by
    rw [comesBefore_iff] at hab hba
    exact sortKey_injective (le_antisymm hba hab)

/-- The sorted list of txids depends on the content of the heights only. -/
theorem rebuildSortedTxids_same (h : HashMap.Same heights heights') :
    rebuildSortedTxids heights = rebuildSortedTxids heights' := by
  have horder (a b : Txid) : comesBefore heights' a b ↔ comesBefore heights a b := by
    simp only [comesBefore, h a, h b]
  have hsorted' : (rebuildSortedTxids heights').Pairwise (comesBefore heights) :=
    (List.pairwise_insertionSort (comesBefore heights') heights'.keys).imp (horder _ _).1
  have hperm : (rebuildSortedTxids heights).Perm (rebuildSortedTxids heights') :=
    (List.perm_insertionSort _ _).trans (h.keys_perm.trans (List.perm_insertionSort _ _).symm)
  exact hperm.eq_of_pairwise' (List.pairwise_insertionSort _ _) hsorted'

end Sorted

/-! ## Updates -/

section Applied

variable {c c' : Cache} {store store' : TxsStore} {env : Env} {u : Update}
  {scripts : List ScriptEntry}

theorem txAsFallback_same (h : HashMap.Same store store') (txs : List (Txid × Transaction)) :
    txAsFallback store txs = txAsFallback store' txs := by
  funext t
  rw [txAsFallback, txAsFallback, h t]

theorem lastUsed_same (h : HashMap.Same c.paths c'.paths) (chain : Chain)
    (txs : List Transaction) : c.lastUsed chain txs = c'.lastUsed chain txs := by
  simp only [lastUsed, h _]

/-- **An update keeps caches the same.** -/
theorem Same.applied (h : Same c c') (hstore : HashMap.Same store store') :
    Same (c.applied env u scripts store) (c'.applied env u scripts store') := by
  have hheights : HashMap.Same (updateHeights c.heights u.txidHeightNew u.txidHeightDelete)
      (updateHeights c'.heights u.txidHeightNew u.txidHeightDelete) :=
    (h.heights.retain _).extend _
  have hpaths : HashMap.Same (c.stage env u scripts).paths (c'.stage env u scripts).paths :=
    h.paths.extend _
  have hindex (chain : Chain) : (c.applied env u scripts store).lastUnusedOf chain =
      (c'.applied env u scripts store').lastUnusedOf chain := by
    rw [applied_lastUnusedOf, applied_lastUnusedOf, lastUsed_same hpaths,
      txAsFallback_same hstore, lastUnusedOf_congr h.lastUnusedExternal h.lastUnusedInternal]
  have hunblinded :
      HashMap.Same (c.stage env u scripts).unblinded (c'.stage env u scripts).unblinded :=
    h.unblinded.extend _
  have hlookup (t : Txid) : (txAsFallback store u.newTxs.txs t).map Transaction.stripped =
        (txAsFallback store' u.newTxs.txs t).map Transaction.stripped := by
    rw [txAsFallback_same hstore]
  have hunspent : HashMap.Same
      ((c.stage env u scripts).updateUnspent store u.txidHeightNew u.txidHeightDelete u.newTxs.txs)
      ((c'.stage env u scripts).updateUnspent store' u.txidHeightNew u.txidHeightDelete
        u.newTxs.txs) :=
    updateUnspent_congr hpaths hunblinded h.unspent (fun t _ => hlookup t) (fun t _ => hlookup t)
      fun o _ => hlookup o.txid
  rw [applied_eq (c := c), applied_eq (c := c')]
  refine ⟨congrArg (· ∪ _) h.txids, hpaths, h.scripts.extend _, hheights,
    rebuildSortedTxids_same hheights, ?_, hunblinded, ?_, h.timestamps.extend _, hindex .external,
    hindex .internal⟩
  · dsimp only [refresh]
    split
    · exact updateUnspentUtxosOnly_congr h.unspent fun o _ => hlookup o.txid
    · exact hunspent
  · dsimp only [refresh, stage]
    rw [h.tip]

end Applied

end Cache

/-- Caches that are the same accept the same updates. -/
theorem Accepts.same {env : Env} {u : Update} {c c' : Cache} {scripts : List ScriptEntry}
    (h : c.Same c') (ha : Accepts env u c scripts) : Accepts env u c' scripts :=
  ⟨h.statusView ▸ ha.status, ha.scripts, h.tip ▸ ha.tip⟩

end Swk
