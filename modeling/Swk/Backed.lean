import Swk.Inputs
import Swk.Unspent

/-!
# Inputs carry the outputs they spend

A transaction without external utxos spends coins of the wallet only, and each of its inputs
carries the output it spends, as the wallet has stored it, without the range proof
(`PsetInput.Backed`). Every step of the builder keeps this: inputs are added with their output, and
an issuance or the signal for replacement changes other fields.
-/

namespace Swk

open List

/-- An input that carries the stored output it spends. -/
def PsetInput.Backed (w : Wollet) (i : PsetInput) : Prop :=
  ∃ txout, w.getTxout i.previousOutput = .ok txout ∧
    i.witnessUtxo = some { txout with rangeproof := none }

/-- A build whose inputs carry the stored outputs they spend. -/
def Build.Backed (w : Wollet) (b : Build) : Prop := ∀ i ∈ b.pset.inputs, i.Backed w

theorem Wollet.getTxout_ok {w : Wollet} {o : OutPoint} {txout : TxOut}
    (h : w.getTxout o = .ok txout) : scriptOf w.disk.txs o = some txout.scriptPubkey := by
  obtain ⟨tx, htx, h⟩ := except_bind_ok_iff.1 h
  unfold getTx at htx
  split at htx
  · next hlookup =>
      cases htx
      split at h
      · next out hout =>
          cases h
          rw [scriptOf, hlookup, Option.bind_some, Transaction.scriptAt, hout, Option.map_some]
      · cases h
  · cases htx

section Steps

variable {x : Builder} {w : Wollet} {t : TxBuilder} {α : Type}

theorem keeps_of_inputs_eq {m : BuildM α}
    (h : ∀ b a b', m b = .ok a b' → b'.pset.inputs = b.pset.inputs) :
    Maintains (Build.Backed w) m := by
  intro b a b' hm hb
  unfold Build.Backed
  rw [h b a b' hm]
  exact hb

theorem addInput_keeps (proofs : Bool) (utxo : WalletTxOut) :
    Maintains (Build.Backed w) (w.addInput x proofs utxo) := by
  intro b idx b' h hb
  obtain ⟨tx, -, h⟩ := liftExcept_bind_ok_iff.1 h
  obtain ⟨txout, htxout, h⟩ := liftExcept_bind_ok_iff.1 h
  replace h := get_bind_ok_iff.1 h
  obtain ⟨-, h⟩ := ensureElse_bind_ok_iff.1 h
  obtain ⟨_, -, h⟩ := liftExcept_bind_ok_iff.1 h
  obtain ⟨-, h⟩ := ensureElse_bind_ok_iff.1 h
  replace h := set_bind_ok_iff.1 h
  obtain ⟨-, rfl⟩ := pure_ok_iff.1 h
  intro i hi
  rcases mem_append.1 hi with hi | hi
  · exact hb i hi
  · rw [mem_singleton.1 hi]
    exact ⟨txout, htxout, rfl⟩

theorem modifyInput_keeps {f : PsetInput → PsetInput} (idx : Nat)
    (hf : ∀ i, (f i).previousOutput = i.previousOutput ∧ (f i).witnessUtxo = i.witnessUtxo) :
    Maintains (Build.Backed w) (modifyInput idx f) := by
  intro b i' b' h hb
  replace h := get_bind_ok_iff.1 h
  cases hi : b.pset.inputs[idx]? with
  | none =>
    rw [hi] at h
    exact absurd h fun h => throw_ok_iff.1 h
  | some i =>
    rw [hi] at h
    replace h := set_bind_ok_iff.1 h
    obtain ⟨-, rfl⟩ := pure_ok_iff.1 h
    intro j hj
    rcases mem_or_eq_of_mem_set hj with hj | rfl
    · exact hb j hj
    · obtain ⟨txout, htxout, hwitness⟩ := hb i (mem_of_getElem? hi)
      obtain ⟨hprevout, hsame⟩ := hf i
      exact ⟨txout, hprevout.symm ▸ htxout, hsame.trans hwitness⟩

theorem setIssuance_keeps (idx : Nat) (satoshiAsset satoshiToken : UInt64)
    (contract : Option Contract) :
    Maintains (Build.Backed w) (setIssuance x idx satoshiAsset satoshiToken contract) := by
  refine Maintains.bind .get fun b => (Maintains.ensureElse _ _).bind fun _ =>
    (Maintains.liftExcept _).bind fun _ => Maintains.bind ?_ fun _ => .pure _
  apply modifyInput_keeps
  intro i
  exact ⟨rfl, rfl⟩

theorem setReissuance_keeps (idx : Nat) (satoshiAsset : UInt64) (tokenAssetBf : Tweak)
    (entropy : BitVec 256) :
    Maintains (Build.Backed w) (setReissuance idx satoshiAsset tokenAssetBf entropy) := by
  apply modifyInput_keeps
  intro i
  exact ⟨rfl, rfl⟩

theorem addChange_keeps (satoshi : UInt64) (asset : AssetId) :
    Maintains (Build.Backed w) (addChange x w satoshi asset) :=
  keeps_of_inputs_eq fun _ _ _ h => by
    obtain ⟨r, -, hgrows⟩ := addChange_ok h
    exact hgrows.same_inputs

namespace TxBuilder

variable {utxos : HashMap OutPoint WalletTxOut} {selected : List WalletTxOut}

theorem drawCoins_keeps (asset : AssetId) (satoshiOut satoshiIn : UInt64) :
    Maintains (Build.Backed w) (t.drawCoins x w utxos selected asset satoshiOut satoshiIn) :=
  .ite (addCoins_maintains addInput_keeps _ _)
    (.ite (addCoinsUntil_maintains addInput_keeps _ _ _ _) (.pure _))

theorem addRecipients_keeps (l : List Recipient) : Maintains (Build.Backed w) (addRecipients l) :=
  keeps_of_inputs_eq fun _ _ _ h => (addRecipients_ok h).1.same_inputs

theorem tokenInput_keeps (token : AssetId) :
    Maintains (Build.Backed w) (t.tokenInput x w utxos token) := by
  refine Maintains.bind .get fun b => ?_
  split
  · exact .pure _
  · split
    · exact .throw _
    · exact (addInput_keeps _ _).bind fun _ => (addChange_keeps _ _).bind fun _ => .pure _

theorem addIssuance_keeps : Maintains (Build.Backed w) (t.addIssuance x w utxos) := by
  have hissued (satoshi : UInt64) (asset : AssetId) (address : Option Address) :
      Maintains (Build.Backed w) (addIssued x w satoshi asset address) :=
    keeps_of_inputs_eq fun _ _ _ h => by
      obtain ⟨r, -, hgrows⟩ := addIssued_ok h
      exact hgrows.same_inputs
  unfold addIssuance
  split
  · exact .pure _
  · exact (setIssuance_keeps _ _ _ _).bind fun _ =>
      (Maintains.ite (hissued _ _ _) (.pure _)).bind fun _ => .ite (hissued _ _ _) (.pure _)
  · exact (Maintains.liftExcept _).bind fun _ => (tokenInput_keeps _).bind fun _ =>
      (setReissuance_keeps _ _ _ _).bind fun _ => hissued _ _ _

variable (hexternal : t.externalUtxos = [])

include hexternal

theorem addExternals_keeps (asset : AssetId) :
    Maintains (Build.Backed w) (t.addExternals x asset) := by
  unfold addExternals
  rw [hexternal]
  exact .pure _

theorem addAsset_keeps (asset : AssetId) :
    Maintains (Build.Backed w) (t.addAsset x w utxos selected asset) :=
  (addRecipients_keeps _).bind fun _ => (addExternals_keeps hexternal _).bind fun _ =>
    (drawCoins_keeps _ _ _).bind fun _ => .pure _

theorem addAssets_keeps (assets : List AssetId) (fee : UInt64 × UInt64) :
    Maintains (Build.Backed w) (t.addAssets x w utxos selected assets fee) := by
  have hchange (sums : UInt64 × UInt64) (asset : AssetId) :
      Maintains (Build.Backed w) (addAssetChange x w sums asset) :=
    keeps_of_inputs_eq fun _ _ _ h => by
      obtain ⟨change, -, hgrows⟩ := addAssetChange_ok h
      exact hgrows.same_inputs
  induction assets generalizing fee with
  | nil => exact .pure _
  | cons asset rest ih =>
    rw [addAssets]
    exact (addAsset_keeps hexternal _).bind fun _ =>
      .ite (ih _) ((hchange _ _).bind fun _ => ih _)

theorem addPolicyAsset_keeps :
    Maintains (Build.Backed w) (t.addPolicyAsset x w utxos selected) :=
  (addRecipients_keeps _).bind fun _ => (addExternals_keeps hexternal _).bind fun _ =>
    (addCoins_maintains addInput_keeps _ _).bind fun _ => .pure _

/-- **Inputs carry the outputs they spend.** -/
theorem finishPlain_backed {p : Pset} {b' : Build} (h : t.finishPlain x w (start w) = .ok p b') :
    ∀ i ∈ p.inputs, i.Backed w := by
  obtain ⟨all, -, h⟩ := liftExcept_bind_ok_iff.1 h
  obtain ⟨selected, -, h⟩ := liftExcept_bind_ok_iff.1 h
  obtain ⟨_, -, h⟩ := liftExcept_bind_ok_iff.1 h
  obtain ⟨fee, b₁, hassets, h⟩ := bind_ok_iff.1 h
  obtain ⟨sums, b₂, hpolicy, h⟩ := bind_ok_iff.1 h
  obtain ⟨_, b₃, hissuance, h⟩ := bind_ok_iff.1 h
  obtain ⟨_, b₄, hfee, h⟩ := bind_ok_iff.1 h
  have hstart : (start w).Backed w := fun i hi => absurd hi not_mem_nil
  have h₁ := addAssets_keeps hexternal _ _ _ _ _ hassets hstart
  have h₂ := addPolicyAsset_keeps hexternal _ _ _ hpolicy h₁
  have h₃ := addIssuance_keeps _ _ _ hissuance h₂
  obtain ⟨_, _, _, _, _, -, -, -, -, hinputs, -⟩ := addFee_ok hfee
  obtain rfl := complete_ok h
  intro i hi
  obtain ⟨j, hj, rfl⟩ := mem_map.1 hi
  rw [hinputs] at hj
  exact h₃ j hj

/-! ## A finished transaction -/

theorem Finished.own_coin {p : Pset} (f : Finished x w t p) {c : Coin} (hc : c ∈ f.coins) :
    ∃ u, f.utxos.lookup u.outpoint = some u ∧ u.coin = c := by
  rcases mem_append.1 hc with hc | hc
  · rcases f.mem_coins hc with ⟨u, hu, -⟩ | hown
    · rw [hexternal] at hu
      exact absurd hu not_mem_nil
    · exact hown
  · obtain ⟨u, hu, hextra, -⟩ := f.issues.token (ne_nil_of_mem hc)
    rw [hextra] at hc
    exact ⟨u, mem_values_atOutpoints f.atOutpoints hu, (mem_singleton.1 hc).symm⟩

theorem Finished.script_mem_paths {p : Pset} (f : Finished x w t p) (hstored : w.ScriptsStored)
    {c : Coin} (hc : c ∈ f.coins) {txout : TxOut} (htxout : w.getTxout c.outpoint = .ok txout) :
    txout.scriptPubkey ∈ w.cache.paths := by
  obtain ⟨u, hu, rfl⟩ := f.own_coin hexternal hc
  obtain ⟨script, hscript, hunspent⟩ := utxosMap_script f.utxosMap (lookup_candidates.1 hu).2.2
  have hsame : some script = some txout.scriptPubkey :=
    (hstored _ _ hunspent).symm.trans (Wollet.getTxout_ok htxout)
  rw [← Option.some.inj hsame]
  exact hscript

end TxBuilder

/-- What the builder makes of coins of the wallet: each input carries its output, which pays a
script of `own`, and a fee comes after the outputs for the recipients. -/
structure Pset.Built (own : Script → Prop) (p : Pset) : Prop where
  spends : ∀ i ∈ p.inputs, ∃ asset amount txout, i.asset = some asset ∧ i.amount = some amount ∧
    i.witnessUtxo = some txout ∧ own txout.scriptPubkey
  pays : ∃ (l : List Recipient) (q : UInt64) (asset : AssetId),
    p.outputs = l.map (·.output) ++ [feeOutput q asset]

theorem outputs_valued {p : Pset} {l : List Recipient} {q : UInt64} {asset : AssetId}
    (h : p.outputs = l.map (·.output) ++ [feeOutput q asset]) :
    ∀ o ∈ p.outputs, ∃ asset amount, o.asset = some asset ∧ o.amount = some amount := by
  rw [h]
  intro o ho
  rcases mem_append.1 ho with ho | ho
  · obtain ⟨r, -, rfl⟩ := mem_map.1 ho
    exact ⟨r.asset, r.satoshi, rfl, rfl⟩
  · rw [mem_singleton.1 ho]
    exact ⟨asset, q, rfl, rfl⟩

/-- **A transaction of the builder.** -/
theorem finishInner_built {p : Pset} (hmake : t.isLiquidexMake = false)
    (htake : t.liquidexProposals = []) (hexternal : t.externalUtxos = [])
    (hstored : w.ScriptsStored) (h : t.finishInner x w = .ok p) : p.Built (· ∈ w.cache.paths) := by
  obtain ⟨b', h⟩ := TxBuilder.finishInner_ok h
  rw [hmake, htake] at h
  obtain ⟨f⟩ := TxBuilder.finishPlain_ok h
  obtain ⟨l, q, houtputs⟩ := f.fee_last
  refine ⟨fun i hi => ?_, l, q, _, houtputs⟩
  obtain ⟨txout, htxout, hwitness⟩ := TxBuilder.finishPlain_backed hexternal h i hi
  have hspent : i.spent ∈ f.coins.map (·.spent) := f.spent ▸ mem_map_of_mem hi
  obtain ⟨c, hc, heq⟩ := mem_map.1 hspent
  obtain ⟨houtpoint, hrest⟩ := Prod.mk.inj heq
  obtain ⟨hasset, hamount⟩ := Prod.mk.inj hrest
  rw [← houtpoint] at htxout
  have hown := f.script_mem_paths hexternal hstored hc htxout
  exact ⟨_, _, _, hasset.symm, hamount.symm, hwitness, hown⟩

end Steps

end Swk
