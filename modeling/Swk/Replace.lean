import Swk.Conservation

/-!
# Replacing a transaction

The builders for stuck transactions, following `wollet.rs`: `replace_tx_of` and `bump_fee_of` pin
the wallet's inputs of an unconfirmed transaction, so that what they build conflicts with it;
`cpfp_of` pins one of its outputs. A replacement may not build on what it replaces: it must not
spend outputs of the transaction, nor outputs of its descendants. The builders keep the outputs of
the transaction itself out of coin selection, but not those of the descendants.
-/

namespace Swk

open Concrete List

/-! ## The builders -/

namespace Wollet

/-- `external_utxo_for`: an output of the wallet, spent or not, to be spent again. -/
def externalUtxoFor (x : Builder) (w : Wollet) (outpoint : OutPoint) : Except Error ExternalUtxo :=
  match w.cache.unblinded.lookup outpoint with
  | none => .error (.missingWalletUtxo outpoint)
  | some unblinded =>
    match w.disk.txs.lookup outpoint.txid with
    | none => .error .missingTransaction
    | some tx =>
      match tx.output[outpoint.vout]? with
      | none => .error (.generic "missing output")
      | some txout =>
        .ok
          { outpoint := outpoint
            txout := txout
            tx := if x.env.descriptor.isSegwit then none else some tx
            unblinded := unblinded
            maxWeightToSatisfy := x.maxWeightToSatisfy }

/-- The inputs of a transaction that belong to the wallet, as external utxos. -/
def walletInputs (x : Builder) (w : Wollet) (tx : Transaction) : Except Error (List ExternalUtxo) :=
  (tx.spends.filter fun o => (w.cache.unblinded.lookup o).isSome).mapM (w.externalUtxoFor x)

def outpointsOf (txid : Txid) (tx : Transaction) : List OutPoint :=
  (List.range tx.output.length).map fun vout => ⟨txid, vout⟩

def repinWalletInputs (x : Builder) (w : Wollet) (txid : Txid) :
    Except Error (TxBuilder × WalletTx) := do
  match ← w.transaction txid with
  | none => throw .missingTransaction
  | some wtx => do
      let externals ← w.walletInputs x wtx.tx
      if externals.isEmpty then
        throw (.generic "cannot replace: none of the transaction's inputs belong to this wallet")
      else
        pure
          ({ TxBuilder.new x.env.policyAsset with
              externalUtxos := externals
              avoidUtxos := outpointsOf txid wtx.tx }, wtx)

def replaceTxOf (x : Builder) (w : Wollet) (txid : Txid) : Except Error TxBuilder := do
  let r ← w.repinWalletInputs x txid
  pure r.1

/-- Whether an output is one of the wallet's internal chain. -/
def isInternal (o : Option WalletTxOut) : Bool := o.any fun o => o.extInt = .internal

/-- The recipient of an output, which must be explicit. -/
def recipientOf (txout : TxOut) : Except Error Recipient :=
  match txout.value.explicit? with
  | none => .error (.generic "cannot fee-bump a confidential recipient output")
  | some satoshi =>
    match txout.asset.explicit? with
    | none => .error (.generic "cannot fee-bump a confidential-asset recipient")
    | some asset => .ok ⟨satoshi, txout.scriptPubkey, none, asset⟩

/-- The outputs of a transaction that are neither fee nor change. -/
def genuineOutputs (wtx : WalletTx) : List TxOut :=
  (wtx.tx.output.zipIdx.filter fun e =>
    !e.1.scriptPubkey.isEmpty && !isInternal ((wtx.outputs[e.2]?).join)).map (·.1)

def bumpFeeOf (x : Builder) (w : Wollet) (txid : Txid) : Except Error TxBuilder := do
  let r ← w.repinWalletInputs x txid
  let recipients ← (genuineOutputs r.2).mapM recipientOf
  pure { r.1 with recipients := recipients }

/-- `cpfp_spendable_outpoint`: change if there is, or else any output of the wallet. -/
def cpfpSpendableOutpoint (w : Wollet) (txid : Txid) : Except Error OutPoint := do
  match ← w.transaction txid with
  | none => throw .missingTransaction
  | some wtx =>
    let unconfirmed := wtx.outputs.filterMap fun o => o.filter fun o => o.height.isNone
    match (unconfirmed.find? fun o => o.extInt = .internal).or unconfirmed.head? with
    | some pick => pure pick.outpoint
    | none => throw (.generic "no unconfirmed wallet output to attach a CPFP child to")

def cpfpOf (x : Builder) (w : Wollet) (txid : Txid) : Except Error TxBuilder := do
  let outpoint ← w.cpfpSpendableOutpoint txid
  let external ← w.externalUtxoFor x outpoint
  pure { TxBuilder.new x.env.policyAsset with externalUtxos := [external] }

end Wollet

/-! ## What they pin -/

section Repin

variable {x : Builder} {w : Wollet} {txid : Txid}

theorem externalUtxoFor_outpoint (o : OutPoint) (u : ExternalUtxo)
    (h : w.externalUtxoFor x o = .ok u) : u.outpoint = o := by
  unfold Wollet.externalUtxoFor at h
  split at h
  · cases h
  · split at h
    · cases h
    · split at h
      · cases h
      · cases h
        rfl

/-- What `repin_wallet_inputs` returns: a builder that spends the wallet's inputs of a stored
transaction, avoids its outputs, and is otherwise new. -/
structure Repins (x : Builder) (w : Wollet) (txid : Txid) (b : TxBuilder) (wtx : WalletTx) :
    Prop where
  transaction : w.transaction txid = .ok (some wtx)
  externals : b.externalUtxos.map (·.outpoint) =
    wtx.tx.spends.filter fun o => (w.cache.unblinded.lookup o).isSome
  avoids : b.avoidUtxos = Wollet.outpointsOf txid wtx.tx
  selects : b.selectedUtxos = none
  issues : b.issuanceRequest = .none
  makes : b.isLiquidexMake = false
  takes : b.liquidexProposals = []

theorem repinWalletInputs_ok {b : TxBuilder} {wtx : WalletTx}
    (h : w.repinWalletInputs x txid = .ok (b, wtx)) : Repins x w txid b wtx := by
  unfold Wollet.repinWalletInputs at h
  obtain ⟨found, hfound, h⟩ := except_bind_ok_iff.1 h
  cases found with
  | none => cases h
  | some wtx' =>
    obtain ⟨externals, hexternals, h⟩ := except_bind_ok_iff.1 h
    split at h
    · cases h
    · cases h
      exact ⟨hfound, mapM_ok_map externalUtxoFor_outpoint hexternals, rfl, rfl, rfl, rfl, rfl⟩

/-- A builder of `replace_tx_of` or of `bump_fee_of` pins the transaction. -/
theorem replaceTxOf_repins {b : TxBuilder} (h : w.replaceTxOf x txid = .ok b) :
    ∃ wtx, Repins x w txid b wtx := by
  obtain ⟨r, hr, h⟩ := except_bind_ok_iff.1 h
  cases h
  exact ⟨r.2, repinWalletInputs_ok hr⟩

theorem bumpFeeOf_repins {b : TxBuilder} (h : w.bumpFeeOf x txid = .ok b) :
    ∃ wtx, Repins x w txid b wtx ∧
      (Wollet.genuineOutputs wtx).mapM Wollet.recipientOf = .ok b.recipients := by
  obtain ⟨r, hr, h⟩ := except_bind_ok_iff.1 h
  obtain ⟨recipients, hrecipients, h⟩ := except_bind_ok_iff.1 h
  cases h
  have hrepins := repinWalletInputs_ok hr
  exact ⟨r.2, ⟨hrepins.transaction, hrepins.externals, hrepins.avoids, hrepins.selects,
    hrepins.issues, hrepins.makes, hrepins.takes⟩, hrecipients⟩

end Repin

/-! ## Descendants -/

/-- The transactions of the wallet that spend outputs of a transaction, directly or through
others. -/
inductive Descendant (w : Wollet) (txid : Txid) : Txid → Prop
  | child {t : Txid} {tx : Transaction} {o : OutPoint} (hlisted : t ∈ w.cache.heights)
      (htx : w.disk.txs.lookup t = some tx) (ho : o ∈ tx.spends) (hparent : o.txid = txid) :
      Descendant w txid t
  | step {t : Txid} {tx : Transaction} {o : OutPoint} (hlisted : t ∈ w.cache.heights)
      (htx : w.disk.txs.lookup t = some tx) (ho : o ∈ tx.spends)
      (hparent : Descendant w txid o.txid) : Descendant w txid t

theorem Descendant.mem {w : Wollet} {txid t : Txid} (h : Descendant w txid t) {s : Set Txid}
    (hs : ∀ t tx o, w.disk.txs.lookup t = some tx → o ∈ tx.spends →
      o.txid = txid ∨ o.txid ∈ s → t ∈ s) : t ∈ s := by
  induction h with
  | child _ htx ho hparent => exact hs _ _ _ htx ho (.inl hparent)
  | step _ htx ho _ ih => exact hs _ _ _ htx ho (.inr ih)

/-! ## Replacements -/

/-- What the caller may change: add recipients, and set fee rate and fee asset. -/
def TxBuilder.Customizes (b t : TxBuilder) : Prop :=
  ∃ recipients feeRate feeAsset, t = { b with
    recipients := b.recipients ++ recipients
    feeRate := feeRate
    feeAsset := feeAsset }

/-- A transaction that can replace another: it spends all inputs of the wallet that the other one
spends, none of the other's outputs, and none of the outputs of its descendants. -/
structure ValidReplacement (w : Wollet) (txid : Txid) (tx : Transaction) (p : Pset) : Prop where
  conflicts : ∀ o ∈ tx.spends, (w.cache.unblinded.lookup o).isSome →
    o ∈ p.inputs.map (·.previousOutput)
  parent : ∀ vout < tx.output.length, ⟨txid, vout⟩ ∉ p.inputs.map (·.previousOutput)
  descendants : ∀ o ∈ p.inputs.map (·.previousOutput), ¬ Descendant w txid o.txid

/-- An output of a PSET that pays what an output of a transaction pays. -/
structure Repays (txout : TxOut) (o : PsetOutput) : Prop where
  script : o.scriptPubkey = txout.scriptPubkey
  asset : ∃ a, txout.asset = .explicit a ∧ o.asset = some a
  amount : ∃ v, txout.value = .explicit v ∧ o.amount = some v

/-- Every output of the transaction that is neither fee nor on the wallet's internal chain is there
again. -/
def KeepsPayments (wtx : WalletTx) (p : Pset) : Prop :=
  ∃ outs, List.Forall₂ Repays (Wollet.genuineOutputs wtx) outs ∧ outs.Subperm p.outputs

/-- Coin selection draws no output of a descendant. -/
def DrawsNoDescendant (x : Builder) (w : Wollet) (txid : Txid) (t : TxBuilder) : Prop :=
  ∀ all, w.utxosMap = .ok all →
    ∀ u ∈ t.allDrawn x (t.candidates all) [], ¬ Descendant w txid u.outpoint.txid

section Replacement

variable {x : Builder} {w : Wollet} {txid : Txid} {b t : TxBuilder} {wtx : WalletTx} {p : Pset}

theorem transaction_stored (h : w.transaction txid = .ok (some wtx)) :
    w.disk.txs.lookup txid = some wtx.tx := by
  unfold Wollet.transaction at h
  split at h
  · cases h
  · rename_i tx htx
    obtain ⟨txos, -, h⟩ := except_bind_ok_iff.1 h
    cases h
    exact htx

theorem Issues.extra_eq_nil {utxos : HashMap OutPoint WalletTxOut} {coins extra : List Coin}
    {recipients : List Recipient} {b₁ b₂ : Build}
    (h : Issues x w utxos coins b₁ .none extra recipients b₂) : extra = [] := by
  cases h
  rfl

theorem Repins.customizes (hrepins : Repins x w txid b wtx) (hcustom : b.Customizes t) :
    Repins x w txid t wtx := by
  obtain ⟨recipients, feeRate, feeAsset, rfl⟩ := hcustom
  exact ⟨hrepins.transaction, hrepins.externals, hrepins.avoids, hrepins.selects, hrepins.issues,
    hrepins.makes, hrepins.takes⟩

theorem mem_outpoints_of_automatic (f : TxBuilder.Finished x w t p)
    (hissues : t.issuanceRequest = .none) (hselects : t.selectedUtxos = none) :
    t.selectedCoins f.utxos = .ok [] ∧ ∀ o, o ∈ p.inputs.map (·.previousOutput) ↔
        o ∈ t.externalUtxos.map (·.outpoint) ∨ ∃ u ∈ t.allDrawn x f.utxos [], u.outpoint = o := by
  have hselected : f.selected = [] := by
    have hcoins := f.selectedCoins
    rw [TxBuilder.selectedCoins, hselects] at hcoins
    exact (Except.ok.inj hcoins).symm
  have hissued := f.issues
  rw [hissues] at hissued
  have hperm : (t.coins x f.utxos f.selected).Perm _ := TxBuilder.coins_perm
  refine ⟨by rw [← hselected]; exact f.selectedCoins, fun o => ?_⟩
  rw [f.outpoints, TxBuilder.Finished.coins, hissued.extra_eq_nil, append_nil,
    (hperm.map _).mem_iff, map_append, mem_append, map_map, map_map, hselected]
  refine or_congr Iff.rfl ?_
  simp only [mem_map]
  rfl

theorem Repins.mem_outpoints (hrepins : Repins x w txid t wtx) (f : TxBuilder.Finished x w t p)
    (o : OutPoint) : o ∈ p.inputs.map (·.previousOutput) ↔
      (o ∈ wtx.tx.spends ∧ (w.cache.unblinded.lookup o).isSome) ∨
        ∃ u ∈ t.allDrawn x f.utxos [], u.outpoint = o := by
  rw [(mem_outpoints_of_automatic f hrepins.issues hrepins.selects).2, hrepins.externals,
    mem_filter]

/-- **A replacement is valid if and only if no output of a descendant is drawn.** -/
theorem Repins.valid_iff (hrepins : Repins x w txid t wtx) (f : TxBuilder.Finished x w t p)
    (hlisted : txid ∈ w.cache.heights) (hacyclic : ¬ Descendant w txid txid) :
    ValidReplacement w txid wtx.tx p ↔ DrawsNoDescendant x w txid t := by
  have houtpoints := hrepins.mem_outpoints f
  have hstored := transaction_stored hrepins.transaction
  have hselected := (mem_outpoints_of_automatic f hrepins.issues hrepins.selects).1
  constructor
  · intro hvalid all hall u hu
    rw [f.utxosMap] at hall
    cases hall
    exact hvalid.descendants u.outpoint ((houtpoints _).2 (.inr ⟨u, hu, rfl⟩))
  · intro hdraws
    refine ⟨?_, ?_, ?_⟩
    · intro o ho hown
      exact (houtpoints o).2 (.inl ⟨ho, hown⟩)
    · intro vout hvout hmem
      rcases (houtpoints _).1 hmem with ⟨ho, -⟩ | ⟨u, hu, ho⟩
      · exact hacyclic (.child hlisted hstored ho rfl)
      · have hlookup := TxBuilder.mem_allDrawn f.atOutpoints hselected hu
        have havoid := (lookup_candidates.1 hlookup).1
        rw [ho, hrepins.avoids] at havoid
        exact havoid (mem_map.2 ⟨vout, mem_range.2 hvout, rfl⟩)
    · intro o ho hdescendant
      rcases (houtpoints o).1 ho with ⟨hspent, -⟩ | ⟨u, hu, rfl⟩
      · exact hacyclic (.step hlisted hstored hspent hdescendant)
      · exact hdraws f.all f.utxosMap u hu hdescendant

theorem recipientOf_repays {txout : TxOut} {r : Recipient}
    (h : Wollet.recipientOf txout = .ok r) : Repays txout r.output := by
  unfold Wollet.recipientOf at h
  split at h
  · cases h
  · rename_i satoshi hvalue
    split at h
    · cases h
    · rename_i asset hasset
      cases h
      refine ⟨rfl, ⟨asset, ?_, rfl⟩, ⟨satoshi, ?_, rfl⟩⟩
      · cases hcase : txout.asset <;> simp_all [Asset.explicit?]
      · cases hcase : txout.value <;> simp_all [Value.explicit?]

theorem bumpFeeOf_keepsPayments (hbump : w.bumpFeeOf x txid = .ok b) (hcustom : b.Customizes t)
    (f : TxBuilder.Finished x w t p) (htransaction : w.transaction txid = .ok (some wtx)) :
    KeepsPayments wtx p := by
  obtain ⟨wtx', hrepins, hrecipients⟩ := bumpFeeOf_repins hbump
  obtain rfl : wtx = wtx' := by
    have heq := htransaction.symm.trans hrepins.transaction
    cases heq
    rfl
  refine ⟨b.recipients.map (·.output), ?_, ?_⟩
  · rw [forall₂_map_right_iff]
    exact (mapM_ok_forall₂ hrecipients).imp fun _ _ hr => recipientOf_repays hr
  · obtain ⟨recipients, feeRate, feeAsset, rfl⟩ := hcustom
    have hsub := (sublist_append_left b.recipients recipients).map (·.output)
    exact hsub.subperm.trans f.recipients_subperm

end Replacement

/-- **Replacements.** What is finished from the builder of `replace_tx_of` or `bump_fee_of` of an
unconfirmed transaction is a valid replacement that keeps the payments of a fee bump, if and only
if coin selection draws no output of a descendant. No transaction spends an output of its own
descendants. -/
theorem replacement_valid_iff (x : Builder) (w : Wollet) (txid : Txid) (wtx : WalletTx)
    (b t : TxBuilder) (p : Pset)
    (hbuilder : w.replaceTxOf x txid = .ok b ∨ w.bumpFeeOf x txid = .ok b)
    (hcustom : b.Customizes t) (hfinish : t.finishInner x w = .ok p)
    (htransaction : w.transaction txid = .ok (some wtx))
    (hunconfirmed : w.cache.heights.lookup txid = some none) (hacyclic : ¬ Descendant w txid txid) :
    (ValidReplacement w txid wtx.tx p ∧ (w.bumpFeeOf x txid = .ok b → KeepsPayments wtx p)) ↔
      DrawsNoDescendant x w txid t := by
  have hrepins : Repins x w txid b wtx := by
    have hsome : ∃ wtx', Repins x w txid b wtx' := by
      rcases hbuilder with hreplace | hbump
      · exact replaceTxOf_repins hreplace
      · obtain ⟨wtx', hrepins, -⟩ := bumpFeeOf_repins hbump
        exact ⟨wtx', hrepins⟩
    obtain ⟨wtx', hrepins⟩ := hsome
    have heq := htransaction.symm.trans hrepins.transaction
    cases heq
    exact hrepins
  have hrepins' := hrepins.customizes hcustom
  obtain ⟨b', hrun⟩ := TxBuilder.finishInner_ok hfinish
  rw [hrepins'.makes, hrepins'.takes] at hrun
  obtain ⟨f⟩ := TxBuilder.finishPlain_ok hrun
  have hlisted : txid ∈ w.cache.heights := by
    rw [← AList.lookup_isSome, hunconfirmed]
    rfl
  rw [hrepins'.valid_iff f hlisted hacyclic]
  exact and_iff_left fun hbump => bumpFeeOf_keepsPayments hbump hcustom f htransaction

/-! ## A child in the way -/

namespace SpentChange

def funding : Transaction := ⟨[], [⟨.explicit 1, .explicit 100000, .null, Concrete.script 0, none⟩]⟩

def payment : Transaction :=
  ⟨[⟨⟨12, 0⟩, .null⟩], [⟨.explicit 1, .explicit 10000, .null, Concrete.script 1, none⟩,
      ⟨.explicit 1, .explicit 90000, .null, Concrete.script 0, none⟩]⟩

def child : Transaction :=
  ⟨[⟨⟨15, 1⟩, .null⟩], [⟨.explicit 1, .explicit 89000, .null, Concrete.script 0, none⟩]⟩

def env : Env :=
  Concrete.env (fun tx => BitVec.ofNat 256 (10 + tx.input.length + 2 * tx.output.length))
    [Concrete.script 0]

def wallet : Wollet := Concrete.funded env [funding, payment, child]

def x : Builder := Concrete.builder env

def replacing : TxBuilder := Concrete.value (wallet.replaceTxOf x 15) (.new 1)

def seen : WalletTx :=
  (Concrete.value (wallet.transaction 15) none).getD ⟨payment, 15, none, [], []⟩

def tx : TxBuilder :=
  { replacing with recipients := replacing.recipients ++ [⟨20000, Concrete.script 2, none, 1⟩] }

theorem replaceTxOf_replacing : wallet.replaceTxOf x 15 = .ok replacing :=
  eq_ok_value (by decide)

theorem customizes : replacing.Customizes tx := ⟨_, replacing.feeRate, replacing.feeAsset, rfl⟩

theorem finishes : Concrete.finishes x wallet tx = true := by decide

theorem transaction_seen : wallet.transaction 15 = .ok (some seen) := by
  have hok : wallet.transaction 15 = .ok (value (wallet.transaction 15) none) :=
    eq_ok_value (by decide)
  have hsome : (value (wallet.transaction 15) none).isSome = true := by decide
  obtain ⟨wtx, hwtx⟩ := Option.isSome_iff_exists.1 hsome
  rw [hok, seen, hwtx]
  rfl

theorem unconfirmed : wallet.cache.heights.lookup 15 = some none := by decide

theorem acyclic : ¬ Descendant wallet 15 15 := by
  intro h
  have hstored : ∀ e ∈ wallet.disk.txs.toPairs, ∀ o ∈ e.2.spends,
      o.txid = 15 ∨ o.txid = 13 → e.1 = 13 := by decide
  have hmem : (15 : Txid) ∈ ({13} : Set Txid) := by
    refine h.mem fun t tx o htx ho hparent => ?_
    exact hstored (t, tx) (HashMap.mem_toPairs.2 htx) o ho hparent
  exact absurd hmem (by decide)

theorem descendant_child : Descendant wallet 15 13 := by
  have hlisted : 13 ∈ wallet.cache.heights := by
    rw [← AList.lookup_isSome]
    decide
  have hstored : wallet.disk.txs.lookup 13 = some child := by decide
  exact .child hlisted hstored mem_cons_self rfl

/-- The replacement spends an output of the payment's child, which goes when the payment does. -/
theorem replacement_spends_child : wallet.replaceTxOf x 15 = .ok replacing ∧
    replacing.Customizes tx ∧ ∃ p, tx.finishInner x wallet = .ok p ∧
      ¬ ValidReplacement wallet 15 payment p := by
  refine ⟨replaceTxOf_replacing, customizes, _, finishInner_finished finishes, ?_⟩
  intro h
  have hspent : (⟨13, 0⟩ : OutPoint) ∈
      (finished x wallet tx).inputs.map (·.previousOutput) := by decide
  exact h.descendants _ hspent descendant_child

theorem replacement_valid_iff_child :
    (ValidReplacement wallet 15 seen.tx (Concrete.finished x wallet tx) ∧
      (wallet.bumpFeeOf x 15 = .ok replacing →
        KeepsPayments seen (Concrete.finished x wallet tx))) ↔
      DrawsNoDescendant x wallet 15 tx :=
  replacement_valid_iff x wallet 15 seen replacing tx _ (.inl replaceTxOf_replacing) customizes
    (finishInner_finished finishes) transaction_seen unconfirmed acyclic

end SpentChange

end Swk
