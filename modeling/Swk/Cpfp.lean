import Swk.Replace
import Swk.Unspent

/-!
# A child that pays for its parent

`cpfp_of` helps a stuck transaction with a child that spends one of its outputs. The output is
found in the wallet's view of the transaction, which lists its outputs whether they are spent or
not: on the internal chain if there is one there, or else the first one (`CpfpLink`). What the
builder pins is always an output of the parent that belongs to the wallet and is not confirmed. It
is one the wallet can still spend exactly when that output is in the map of unspent outputs
(`LinkUnspent`); otherwise the child conflicts with the transaction that spends it.
-/

namespace Swk

open List

/-! ## The output a child is attached to -/

/-- Outputs of the internal chain come first, and then those with a smaller index. -/
def WalletTxOut.Precedes (u v : WalletTxOut) : Prop :=
  (u.extInt = .internal ∧ v.extInt = .external) ∨
    (u.extInt = v.extInt ∧ u.outpoint.vout ≤ v.outpoint.vout)

/-- The first of the wallet's outputs of a transaction. -/
structure CpfpLink (w : Wollet) (txid : Txid) (u : WalletTxOut) : Prop where
  parent : u.outpoint.txid = txid
  own : w.ownOutput u.outpoint = some u
  first : ∀ v : WalletTxOut, v.outpoint.txid = txid → w.ownOutput v.outpoint = some v → u.Precedes v

/-- The output a child would be attached to is not spent. -/
def LinkUnspent (w : Wollet) (txid : Txid) : Prop :=
  ∀ u, CpfpLink w txid u → u.outpoint ∈ w.cache.unspent

theorem find?_le_of_pairwise {α : Type} {f : α → Nat} {p : α → Bool} {l : List α} {a : α}
    (hl : l.Pairwise fun a b => f a < f b) (h : l.find? p = some a) :
    ∀ b ∈ l, p b = true → f a ≤ f b := by
  intro b hb hp
  obtain ⟨-, before, after, rfl, hbefore⟩ := find?_eq_some_iff_append.1 h
  rw [mem_append, mem_cons] at hb
  rcases hb with hb | rfl | hb
  · have hnot := hbefore b hb
    rw [hp] at hnot
    cases hnot
  · exact le_rfl
  · have htail := (pairwise_append.1 hl).2.1
    exact (rel_of_pairwise_cons htail hb).le

theorem head?_le_of_pairwise {α : Type} {f : α → Nat} {l : List α} {a : α}
    (hl : l.Pairwise fun a b => f a < f b) (h : l.head? = some a) : ∀ b ∈ l, f a ≤ f b := by
  intro b hb
  rw [head?_eq_some_iff] at h
  obtain ⟨tail, rfl⟩ := h
  rcases mem_cons.1 hb with rfl | hb
  · exact le_rfl
  · exact (rel_of_pairwise_cons hl hb).le

section Link

variable {x : Builder} {w : Wollet} {txid : Txid} {b t : TxBuilder} {u v : WalletTxOut}

theorem WalletTxOut.Precedes.vout_eq (h : u.Precedes v) (h' : v.Precedes u) :
    u.outpoint.vout = v.outpoint.vout := by
  rcases h with ⟨hu, hv⟩ | ⟨hsame, hle⟩
  · rcases h' with ⟨hv', -⟩ | ⟨hsame, -⟩
    · rw [hv] at hv'
      cases hv'
    · rw [hu, hv] at hsame
      cases hsame
  · rcases h' with ⟨hv, hu⟩ | ⟨-, hle'⟩
    · rw [hu, hv] at hsame
      cases hsame
    · exact Nat.le_antisymm hle hle'

theorem CpfpLink.unique (hu : CpfpLink w txid u) (hv : CpfpLink w txid v) : u = v := by
  have hvout := (hu.first v hv.parent hv.own).vout_eq (hv.first u hu.parent hu.own)
  have houtpoint : u.outpoint = v.outpoint := by
    rw [OutPoint.mk.injEq]
    exact ⟨hu.parent.trans hv.parent.symm, hvout⟩
  rw [← Option.some_inj, ← hu.own, houtpoint, hv.own]

theorem CpfpLink.linkUnspent_iff (hu : CpfpLink w txid u) :
    LinkUnspent w txid ↔ u.outpoint ∈ w.cache.unspent := by
  constructor
  · intro h
    exact h u hu
  · intro hmem v hv
    rw [hv.unique hu]
    exact hmem

/-- The unconfirmed outputs that `cpfp_spendable_outpoint` chooses from. -/
def unconfirmedOutputs (wtx : WalletTx) : List WalletTxOut :=
  wtx.outputs.filterMap fun o => o.filter fun o => o.height.isNone

variable {txos : HashMap OutPoint WalletTxOut} {tx : Transaction}

theorem unconfirmedOutputs_walletTx : unconfirmedOutputs (w.walletTx txos txid tx) =
      (List.range tx.output.length).filterMap fun vout =>
        (txos.lookup ⟨txid, vout⟩).filter fun o => o.height.isNone := by
  rw [unconfirmedOutputs, Wollet.walletTx, txOutputs, filterMap_map]
  rfl

theorem mem_unconfirmedOutputs (htxos : w.txosMap = .ok txos)
    (htx : w.disk.txs.lookup txid = some tx) : u ∈ unconfirmedOutputs (w.walletTx txos txid tx) ↔
      u.outpoint.txid = txid ∧ txid ∈ w.cache.sortedTxids ∧ w.ownOutput u.outpoint = some u ∧
        u.height = none := by
  simp only [unconfirmedOutputs_walletTx, mem_filterMap, mem_range,
    Option.filter_eq_some_iff, Option.isNone_iff_eq_none, Wollet.lookup_txosMap htxos]
  constructor
  · rintro ⟨vout, -, ⟨hlisted, hown⟩, hheight⟩
    rw [Wollet.ownOutput_outpoint hown]
    exact ⟨rfl, hlisted, hown, hheight⟩
  · rintro ⟨rfl, hlisted, hown, hheight⟩
    obtain ⟨tx', out, htx', hout, -⟩ := Wollet.ownOutput_eq_some.1 hown
    rw [htx] at htx'
    cases htx'
    exact ⟨u.outpoint.vout, (List.getElem?_eq_some_iff.1 hout).1, ⟨hlisted, hown⟩, hheight⟩

theorem pairwise_unconfirmedOutputs (htxos : w.txosMap = .ok txos) :
    (unconfirmedOutputs (w.walletTx txos txid tx)).Pairwise fun u v =>
      u.outpoint.vout < v.outpoint.vout := by
  rw [unconfirmedOutputs_walletTx]
  refine pairwise_lt_range.filterMap _ ?_
  intro i j hij u hu v hv
  rw [Option.filter_eq_some_iff, Wollet.lookup_txosMap htxos] at hu hv
  rw [Wollet.ownOutput_outpoint hu.1.2, Wollet.ownOutput_outpoint hv.1.2]
  exact hij

theorem ownOutput_height (hparent : u.outpoint.txid = txid)
    (hown : w.ownOutput u.outpoint = some u) :
    u.height = (w.cache.heights.lookup txid).getD none := by
  obtain ⟨tx, out, -, -, htxo⟩ := Wollet.ownOutput_eq_some.1 hown
  rw [(Cache.txoAt_some htxo).2.2.1, hparent]

theorem pick_cpfpLink (htxos : w.txosMap = .ok txos) (htx : w.disk.txs.lookup txid = some tx)
    (hpick : ((unconfirmedOutputs (w.walletTx txos txid tx)).find? fun o => o.extInt = .internal).or
        (unconfirmedOutputs (w.walletTx txos txid tx)).head? = some u) :
    CpfpLink w txid u ∧ txid ∈ w.cache.sortedTxids ∧ u.height = none := by
  have hmem (v : WalletTxOut) := mem_unconfirmedOutputs (u := v) htxos htx
  have hsorted : (unconfirmedOutputs (w.walletTx txos txid tx)).Pairwise _ :=
    pairwise_unconfirmedOutputs htxos
  have hu : u ∈ unconfirmedOutputs (w.walletTx txos txid tx) := by
    rcases Option.or_eq_some_iff.1 hpick with hfind | ⟨-, hhead⟩
    · exact mem_of_find?_eq_some hfind
    · exact mem_of_head? hhead
  obtain ⟨hparent, hlisted, hown, hheight⟩ := (hmem u).1 hu
  refine ⟨⟨hparent, hown, fun v hvparent hvown => ?_⟩, hlisted, hheight⟩
  have hv : v ∈ unconfirmedOutputs (w.walletTx txos txid tx) := by
    refine (hmem v).2 ⟨hvparent, hlisted, hvown, ?_⟩
    rw [ownOutput_height hvparent hvown, ← ownOutput_height hparent hown, hheight]
  rcases Option.or_eq_some_iff.1 hpick with hfind | ⟨hnone, hhead⟩
  · have hinternal : u.extInt = .internal := by simpa using find?_some hfind
    cases hchain : v.extInt with
    | external => exact .inl ⟨hinternal, hchain⟩
    | internal =>
      refine .inr ⟨hinternal.trans hchain.symm, ?_⟩
      exact find?_le_of_pairwise hsorted hfind v hv (by simpa using hchain)
  · -- no output is on the internal chain
    have hexternal : ∀ o ∈ unconfirmedOutputs (w.walletTx txos txid tx), o.extInt = .external := by
      intro o ho
      have hnot := find?_eq_none.1 hnone o ho
      cases hchain : o.extInt with
      | external => rfl
      | internal => exact absurd (by simpa using hchain) hnot
    refine .inr ⟨(hexternal u hu).trans (hexternal v hv).symm, ?_⟩
    exact head?_le_of_pairwise hsorted hhead v hv

theorem cpfpSpendableOutpoint_ok {o : OutPoint} (h : w.cpfpSpendableOutpoint txid = .ok o) :
    ∃ u, CpfpLink w txid u ∧ u.outpoint = o ∧ txid ∈ w.cache.sortedTxids ∧ u.height = none := by
  obtain ⟨found, hfound, h⟩ := except_bind_ok_iff.1 h
  unfold Wollet.transaction at hfound
  cases htx : w.disk.txs.lookup txid with
  | none =>
    rw [htx] at hfound
    cases hfound
    cases h
  | some tx =>
    rw [htx] at hfound
    obtain ⟨txos, htxos, hfound⟩ := except_bind_ok_iff.1 hfound
    cases hfound
    dsimp only at h
    split at h
    · next u hpick =>
        cases h
        obtain ⟨hlink, hlisted, hheight⟩ := pick_cpfpLink htxos htx hpick
        exact ⟨u, hlink, rfl, hlisted, hheight⟩
    · cases h

/-- What `external_utxo_for` returns for an output of the wallet. -/
theorem externalUtxoFor_ok {o : OutPoint} {e : ExternalUtxo} (h : w.externalUtxoFor x o = .ok e) :
    e.outpoint = o ∧ ∃ tx, w.disk.txs.lookup o.txid = some tx ∧
      tx.output[o.vout]? = some e.txout := by
  refine ⟨externalUtxoFor_outpoint o e h, ?_⟩
  unfold Wollet.externalUtxoFor at h
  split at h
  · cases h
  · split at h
    · cases h
    · next tx htx =>
        split at h
        · cases h
        · next txout htxout =>
            cases h
            exact ⟨tx, htx, htxout⟩

/-- What `cpfp_of` pins. -/
theorem cpfpOf_ok (h : w.cpfpOf x txid = .ok b) :
    ∃ u e, CpfpLink w txid u ∧ txid ∈ w.cache.sortedTxids ∧ u.height = none ∧
      e.outpoint = u.outpoint ∧
      (∃ tx, w.disk.txs.lookup txid = some tx ∧ tx.output[u.outpoint.vout]? = some e.txout) ∧
      b = { TxBuilder.new x.env.policyAsset with externalUtxos := [e] } := by
  obtain ⟨o, ho, h⟩ := except_bind_ok_iff.1 h
  obtain ⟨u, hlink, rfl, hlisted, hheight⟩ := cpfpSpendableOutpoint_ok ho
  obtain ⟨e, he, h⟩ := except_bind_ok_iff.1 h
  cases h
  obtain ⟨houtpoint, tx, htx, htxout⟩ := externalUtxoFor_ok he
  rw [hlink.parent] at htx
  exact ⟨u, e, hlink, hlisted, hheight, houtpoint, ⟨tx, htx, htxout⟩, rfl⟩

theorem drawn_unspent {p : Pset} (f : TxBuilder.Finished x w t p)
    (hselected : t.selectedCoins f.utxos = .ok []) (hu : u ∈ t.allDrawn x f.utxos []) :
    u.outpoint ∈ w.cache.unspent := by
  have hlookup := TxBuilder.mem_allDrawn f.atOutpoints hselected hu
  obtain ⟨script, -, hunspent⟩ := utxosMap_script f.utxosMap (lookup_candidates.1 hlookup).2.2
  exact HashMap.mem_iff.2 ⟨script, hunspent⟩

end Link

/-- A PSET that spends nothing a transaction of the wallet spends. -/
def NoConflict (w : Wollet) (p : Pset) : Prop :=
  ∀ o ∈ p.inputs.map (·.previousOutput), ∀ t ∈ w.cache.heights, ¬ SpentBy w.disk.txs t o

/-- **Child pays for parent.** The builder of `cpfp_of` pins one output of the parent, which is not
confirmed and belongs to the wallet. It is an unspent one if and only if the first of the wallet's
outputs of the parent is. Where the map of unspent outputs is exact, this is what decides whether a
child finished from the builder conflicts with a transaction of the wallet. -/
theorem cpfpOf_spendable_iff (x : Builder) (w : Wollet) (txid : Txid) (b : TxBuilder)
    (h : w.cpfpOf x txid = .ok b) : ∃ e, b.externalUtxos = [e] ∧ e.outpoint.txid = txid ∧
      (∃ tx, w.disk.txs.lookup txid = some tx ∧ tx.output[e.outpoint.vout]? = some e.txout) ∧
      (∀ height, w.cache.heights.lookup txid ≠ some (some height)) ∧
      e.txout.scriptPubkey ∈ w.cache.paths ∧
      (e.outpoint ∈ w.cache.unspent ↔ LinkUnspent w txid) ∧
      (UnspentExact w → (∀ t ∈ w.cache.sortedTxids, t ∈ w.cache.heights) →
        ∀ t p, b.Customizes t → t.finishInner x w = .ok p →
          (NoConflict w p ↔ LinkUnspent w txid)) := by
  obtain ⟨u, e, hlink, hlisted, hheight, houtpoint, ⟨tx, htx, htxout⟩, rfl⟩ := cpfpOf_ok h
  refine ⟨e, rfl, ?_, ⟨tx, htx, ?_⟩, ?_, ?_, ?_, ?_⟩
  · rw [houtpoint, hlink.parent]
  · rw [houtpoint, htxout]
  · intro height hconfirmed
    rw [ownOutput_height hlink.parent hlink.own, hconfirmed] at hheight
    cases hheight
  · obtain ⟨tx', out, htx', hout, htxo⟩ := Wollet.ownOutput_eq_some.1 hlink.own
    rw [hlink.parent, htx] at htx'
    cases htx'
    rw [htxout] at hout
    cases hout
    exact Cache.mem_paths_of_index (Cache.txoAt_some htxo).2.2.2.2.1
  · rw [hlink.linkUnspent_iff, houtpoint]
  · intro hexact hsorted t p hcustom hfinish
    obtain ⟨recipients, feeRate, feeAsset, rfl⟩ := hcustom
    obtain ⟨b', hrun⟩ := TxBuilder.finishInner_ok hfinish
    obtain ⟨f⟩ := TxBuilder.finishPlain_ok hrun
    obtain ⟨hselected, houtpoints⟩ := mem_outpoints_of_automatic f rfl rfl
    have hheights : u.outpoint.txid ∈ w.cache.heights := by
      rw [hlink.parent]
      exact hsorted txid hlisted
    rw [hlink.linkUnspent_iff, hexact.mem_iff hlink.own hheights]
    constructor
    · intro hconflict
      apply hconflict
      rw [houtpoints, ← houtpoint]
      exact .inl (mem_singleton.2 rfl)
    · intro hunspent o ho
      rcases (houtpoints o).1 ho with hpinned | ⟨v, hv, rfl⟩
      · have hpin : o = e.outpoint := mem_singleton.1 hpinned
        rw [hpin, houtpoint]
        exact hunspent
      · obtain ⟨s, hs⟩ := HashMap.mem_iff.1 (drawn_unspent f hselected hv)
        exact ((hexact _ s).1 hs).2.2.2.2

namespace SpentChange

def rescue : TxBuilder := Concrete.value (wallet.cpfpOf x 15) (.new 1)

theorem cpfpOf_rescue : wallet.cpfpOf x 15 = .ok rescue := Concrete.eq_ok_value (by decide)

theorem rescue_finishes : Concrete.finishes x wallet rescue = true := by decide

/-- The child that is finished spends the change again. -/
theorem cpfpOf_conflicts : wallet.cpfpOf x 15 = .ok rescue ∧
    rescue.externalUtxos.map (·.outpoint) = [⟨15, 1⟩] ∧ ⟨15, 1⟩ ∉ wallet.cache.unspent ∧
      ∃ p, rescue.finishInner x wallet = .ok p ∧ ¬ NoConflict wallet p := by
  refine ⟨cpfpOf_rescue, by decide, ?_, _, Concrete.finishInner_finished rescue_finishes, ?_⟩
  · rw [← AList.lookup_isSome]
    decide
  · intro h
    have hpinned : (⟨15, 1⟩ : OutPoint) ∈
        (Concrete.finished x wallet rescue).inputs.map (·.previousOutput) := by decide
    have hlisted : 13 ∈ wallet.cache.heights := by
      rw [← AList.lookup_isSome]
      decide
    exact h _ hpinned 13 hlisted ⟨child, by decide, mem_cons_self⟩

theorem unspentExact_wallet : UnspentExact wallet := by
  have hunspent : ∀ e ∈ wallet.cache.unspent.toPairs,
      (wallet.cache.unblinded.lookup e.1).isSome ∧ (wallet.cache.heights.lookup e.1.txid).isSome ∧
        scriptOf wallet.disk.txs e.1 = some e.2 ∧ (wallet.cache.paths.lookup e.2).isSome ∧
        ∀ e' ∈ wallet.disk.txs.toPairs, e.1 ∉ e'.2.spends := by decide
  have hunblinded : ∀ e ∈ wallet.cache.unblinded.toPairs,
      wallet.cache.unspent.lookup e.1 = scriptOf wallet.disk.txs e.1 ∨
        ∃ e' ∈ wallet.disk.txs.toPairs,
          (wallet.cache.heights.lookup e'.1).isSome ∧ e.1 ∈ e'.2.spends := by decide
  intro o s
  simp only [← AList.lookup_isSome]
  constructor
  · intro h
    obtain ⟨hun, hheight, hscript, hpath, hfree⟩ := hunspent _ (HashMap.mem_toPairs.2 h)
    refine ⟨hun, hheight, hscript, hpath, ?_⟩
    rintro t - ⟨tx, htx, ho⟩
    exact hfree _ (HashMap.mem_toPairs.2 htx) ho
  · rintro ⟨hun, -, hscript, -, hfree⟩
    obtain ⟨secrets, hsecrets⟩ := Option.isSome_iff_exists.1 hun
    rcases hunblinded _ (HashMap.mem_toPairs.2 hsecrets) with hsame | ⟨e, he, hlisted, ho⟩
    · rw [hsame, hscript]
    · exact absurd ⟨e.2, HashMap.mem_toPairs.1 he, ho⟩ (hfree e.1 hlisted)

/-- For the spent change both sides fail. -/
theorem cpfpOf_spendable_iff_rescue : ∃ e, rescue.externalUtxos = [e] ∧
      (e.outpoint ∈ wallet.cache.unspent ↔ LinkUnspent wallet 15) ∧
      (NoConflict wallet (Concrete.finished x wallet rescue) ↔ LinkUnspent wallet 15) := by
  obtain ⟨e, he, -, -, -, -, hunspent, hchild⟩ :=
    cpfpOf_spendable_iff x wallet 15 rescue cpfpOf_rescue
  refine ⟨e, he, hunspent, hchild unspentExact_wallet ?_ rescue _ ?_ ?_⟩
  · intro t ht
    have hsorted : wallet.cache.sortedTxids = Cache.rebuildSortedTxids wallet.cache.heights := rfl
    rw [hsorted, Cache.mem_rebuildSortedTxids] at ht
    exact ht
  · refine ⟨[], rescue.feeRate, rescue.feeAsset, ?_⟩
    rw [append_nil]
  · exact Concrete.finishInner_finished rescue_finishes

end SpentChange

end Swk
