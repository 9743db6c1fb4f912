import Mathlib.Data.List.Forall2
import Swk.Conservation

/-!
# What a reissuance mints

Consensus reads the issuance of an input off two fields. With a zero nonce it is a new issuance,
and its entropy is made from the spent outpoint and a contract hash; with any other nonce it is a
reissuance, and the entropy is given. The builder makes the nonce of the asset blinding factor of
the token's coin, and takes the entropy from the issuance that the request refers to.

Three things have to be right for the two to agree (`Reissuable`). The coin has to be blinded: an
explicit one has no blinding factor, and its nonce is zero. The issuance has to be a new one:
`extract_issuances` computes the entropy as for a new issuance also where the input is a
reissuance. And its amount has to be explicit, since the id of the token says so. The asset that is
minted is the one that was asked for, and its token the one that is spent, if and only if all three
are (`reissuance_mints_iff`).
-/

namespace Swk

open List TxBuilder

/-! ## The issuance a request refers to -/

namespace TxBuilder

def issuesAsset (h : IssuanceHash) (asset : AssetId) (i : TxIn) : Bool :=
  (i.issuanceIds h).1 = asset

/-- The input whose details `issuanceOf` returns: the first that issues the asset, among those of
the given transaction, or among the new issuances of the wallet's transactions. -/
def issuingInput (x : Builder) (w : Wollet) (asset : AssetId) : Option Transaction → Option TxIn
  | some tx => (tx.input.filter TxIn.hasIssuance).find? (issuesAsset x.hash asset)
  | none =>
    match w.transactions with
    | .ok txs =>
      (txs.flatMap fun wtx => wtx.tx.input.filter TxIn.hasIssuance).find? fun i =>
        issuesAsset x.hash asset i && i.assetIssuance.assetBlindingNonce = .zero
    | .error _ => none

end TxBuilder

/-- The details of an input, in some transaction. -/
def DetailsOf (h : IssuanceHash) (d : IssuanceDetails) (i : TxIn) : Prop :=
  ∃ txid vin, d = i.issuanceDetails h txid vin

theorem rel_find? {α β : Type} {r : α → β → Prop} {p : α → Bool} {q : β → Bool}
    (hpq : ∀ a b, r a b → p a = q b) {l : List α} {l' : List β} (h : List.Forall₂ r l l') :
    Option.Rel r (l.find? p) (l'.find? q) := by
  induction h with
  | nil => exact .none
  | @cons a b l l' hab _ ih =>
    rw [find?_cons, find?_cons, hpq a b hab]
    cases q b with
    | true => exact .some hab
    | false => exact ih

theorem extractIssuances_details (env : Env) (h : IssuanceHash) (tx : Transaction) :
    List.Forall₂ (DetailsOf h) (extractIssuances env h tx) (tx.input.filter TxIn.hasIssuance) := by
  have hinputs : tx.input.filter TxIn.hasIssuance =
      (tx.input.zipIdx.filter fun e => e.1.hasIssuance).map Prod.fst := by
    conv_lhs => rw [← zipIdx_map_fst 0 tx.input]
    rw [filter_map]
    rfl
  rw [extractIssuances, hinputs, forall₂_map_left_iff, forall₂_map_right_iff, forall₂_same]
  intro e _
  exact ⟨env.txid tx, e.2, rfl⟩

theorem flatMap_details (env : Env) (h : IssuanceHash) (txs : List WalletTx) :
    List.Forall₂ (DetailsOf h) (txs.flatMap fun wtx => extractIssuances env h wtx.tx)
      (txs.flatMap fun wtx => wtx.tx.input.filter TxIn.hasIssuance) := by
  induction txs with
  | nil => exact .nil
  | cons wtx txs ih =>
    rw [flatMap_cons, flatMap_cons]
    exact rel_append (extractIssuances_details env h wtx.tx) ih

section Issuing

variable {x : Builder} {w : Wollet} {asset : AssetId}

theorem rel_details {d? : Option IssuanceDetails} {i? : Option TxIn} {h : IssuanceHash}
    {d : IssuanceDetails} (hrel : Option.Rel (DetailsOf h) d? i?) (hd : d? = some d) :
    ∃ i, i? = some i ∧ DetailsOf h d i := by
  subst hd
  cases hrel with
  | some hdetails => exact ⟨_, rfl, hdetails⟩

theorem issuanceOf_ok {tx : Option Transaction} {details : IssuanceDetails}
    (h : TxBuilder.issuanceOf x w asset tx = .ok details) :
    ∃ txin, TxBuilder.issuingInput x w asset tx = some txin ∧ DetailsOf x.hash details txin := by
  cases tx with
  | some tx =>
    unfold issuanceOf at h
    dsimp only at h
    split at h
    · next hfind =>
        cases h
        refine rel_details (rel_find? ?_ (extractIssuances_details x.env x.hash tx)) hfind
        rintro d i ⟨txid, vin, rfl⟩
        rfl
    · cases h
  | none =>
    obtain ⟨all, hall, h⟩ := except_bind_ok_iff.1 h
    obtain ⟨txs, htxs, hall⟩ := except_bind_ok_iff.1 hall
    cases hall
    unfold issuingInput
    rw [htxs]
    split at h
    · next hfind =>
        cases h
        refine rel_details (rel_find? ?_ (flatMap_details x.env x.hash txs)) hfind
        rintro d i ⟨txid, vin, rfl⟩
        simp [TxIn.issuanceDetails, issuesAsset]
    · cases h

theorem issuingInput_asset {tx : Option Transaction} {txin : TxIn}
    (h : TxBuilder.issuingInput x w asset tx = some txin) :
    (txin.issuanceIds x.hash).1 = asset := by
  unfold issuingInput at h
  cases tx with
  | some tx => simpa [issuesAsset] using find?_some h
  | none =>
    dsimp only at h
    split at h
    · have hfound := find?_some h
      rw [Bool.and_eq_true] at hfound
      simpa [issuesAsset] using hfound.1
    · cases h

theorem Issues.reissuance_input {utxos : HashMap OutPoint WalletTxOut} {coins extra : List Coin}
    {outs : List PsetOutput} {b b' : Build} {recipients : List Recipient} {satoshi : UInt64}
    {address : Option Address} {tx : Option Transaction}
    (hb : Grows (TxBuilder.start w) coins outs b)
    (h : Issues x w utxos coins b (.reissuance asset satoshi address tx) extra recipients b') :
    ∃ details c i, TxBuilder.issuanceOf x w asset tx = .ok details ∧
      tokenCoin x utxos coins details.token = some c ∧ c.secrets.asset = details.token ∧
      i ∈ b'.pset.inputs ∧ i.spent = c.spent ∧ i.issuanceValueAmount = some satoshi ∧
      i.issuanceIds x.hash = x.hash.ids c.outpoint c.secrets.assetBf details.entropy false := by
  cases h with
  | reissuance hdetails hcoin hinput hidx hgrows hrewrites hvalue hkeys hids hissued hpaid =>
    rename_i details c change idx i i' b₁ b₂ r
    obtain ⟨-, c', hc', hi⟩ := hrewrites.issuedBy (h := x.hash) (hb.trans hgrows).spends asset
    rw [hidx] at hc'
    cases hc'
    have htoken : c.secrets.asset = details.token := by
      cases hinput with
      | found _ _ hasset => exact hasset
      | added u hu => exact (mem_coinsOf.1 hu).2
    refine ⟨details, c, i', hdetails, hcoin, htoken, ?_, ?_, hvalue, ?_⟩
    · obtain ⟨l₁, l₂, -, -, hb₂⟩ := hrewrites.inputs
      rw [hpaid.same_inputs, hb₂]
      exact mem_append_right _ mem_cons_self
    · rw [hrewrites.spent, hi.spent]
    · rw [hids, show i.previousOutput = c.outpoint from congrArg Prod.fst hi.spent]

end Issuing

/-! ## Which asset comes out -/

/-- The hashes of some entropies do not collide. -/
structure IssuanceHash.CollisionFree (h : IssuanceHash) (entropies : List (BitVec 256)) : Prop where
  nodup : entropies.Nodup
  assets : ∀ e ∈ entropies, ∀ e' ∈ entropies, h.fromEntropy e = h.fromEntropy e' → e = e'
  tokens : ∀ e ∈ entropies,
    h.reissuanceTokenFromEntropy e true ≠ h.reissuanceTokenFromEntropy e false

/-- The entropies that may come up: that of the input, the one `extract_issuances` makes of it, and
the one that a zero nonce makes of that. -/
def reissuanceEntropies (h : IssuanceHash) (txin : TxIn) (c : Coin) : List (BitVec 256) :=
  let entropy := h.generateAssetEntropy txin.previousOutput txin.assetIssuance.assetEntropy
  [txin.assetIssuance.assetEntropy, entropy, h.generateAssetEntropy c.outpoint entropy]

/-- The coin is blinded, and the issuance is a new one of an explicit amount. -/
def Reissuable (txin : TxIn) (c : Coin) : Prop :=
  c.secrets.assetBf ≠ .zero ∧ txin.assetIssuance.assetBlindingNonce = .zero ∧
    txin.assetIssuance.amount.isConfidential = false

theorem ids_eq_iff {h : IssuanceHash} {txin : TxIn} {c : Coin}
    (hfree : h.CollisionFree (reissuanceEntropies h txin c)) : h.ids c.outpoint c.secrets.assetBf
        (h.generateAssetEntropy txin.previousOutput txin.assetIssuance.assetEntropy) false =
      txin.issuanceIds h ↔ Reissuable txin c := by
  obtain ⟨hnodup, hassets, htokens⟩ := hfree
  simp only [reissuanceEntropies, nodup_cons, mem_cons, not_mem_nil, or_false,
    not_or, not_false_eq_true, nodup_nil, and_true] at hnodup
  obtain ⟨⟨hfield, hfield'⟩, hentropy⟩ := hnodup
  unfold TxIn.issuanceIds IssuanceHash.ids Reissuable
  dsimp only
  rw [Prod.mk.injEq]
  by_cases hbf : c.secrets.assetBf = .zero
  · -- the nonce is zero, and the coin makes an entropy that the issuance does not have
    rw [if_pos hbf]
    refine iff_of_false ?_ fun hre => hre.1 hbf
    rintro ⟨hasset, -⟩
    split at hasset
    · exact hentropy (hassets _ (by simp [reissuanceEntropies]) _ (by simp [reissuanceEntropies])
        hasset).symm
    · exact hfield' (hassets _ (by simp [reissuanceEntropies]) _ (by simp [reissuanceEntropies])
        hasset).symm
  · rw [if_neg hbf]
    by_cases hnonce : txin.assetIssuance.assetBlindingNonce = .zero
    · rw [if_pos hnonce]
      cases hamount : txin.assetIssuance.amount.isConfidential with
      | true =>
        refine iff_of_false ?_ fun hre => absurd hre.2.2 (by decide)
        rintro ⟨-, htoken⟩
        exact htokens _ (by simp [reissuanceEntropies]) htoken.symm
      | false => exact iff_of_true ⟨rfl, rfl⟩ ⟨hbf, hnonce, rfl⟩
    · rw [if_neg hnonce]
      refine iff_of_false ?_ fun hre => hnonce hre.2.1
      rintro ⟨hasset, -⟩
      exact hfield (hassets _ (by simp [reissuanceEntropies]) _ (by simp [reissuanceEntropies])
        hasset).symm

section Finished

variable {x : Builder} {w : Wollet} {t : TxBuilder} {p : Pset}

theorem signal_issuance (i : PsetInput) : (t.signal i).issuanceIds x.hash = i.issuanceIds x.hash ∧
    (t.signal i).issuanceValueAmount = i.issuanceValueAmount := ⟨rfl, rfl⟩

theorem addCoinsUntil_request (r : IssuanceRequest) (wantAll : Bool) (satoshiOut : UInt64)
    (l : List WalletTxOut) (satoshiIn : UInt64) :
    TxBuilder.addCoinsUntil x w { t with issuanceRequest := r } wantAll satoshiOut l satoshiIn =
      t.addCoinsUntil x w wantAll satoshiOut l satoshiIn := by
  induction l generalizing satoshiIn with
  | nil => rfl
  | cons utxo rest ih => simp only [addCoinsUntil, ih]

theorem finishLiquidexTake_request (r : IssuanceRequest) :
    TxBuilder.finishLiquidexTake x w { t with issuanceRequest := r } =
      t.finishLiquidexTake x w := by
  have hpay (utxos : HashMap OutPoint WalletTxOut) (wanted : TxBuilder.MakerSide) :
      payMaker x w { t with issuanceRequest := r } utxos wanted = t.payMaker x w utxos wanted := by
    simp only [payMaker, addCoinsUntil_request]
  have htake (utxos : HashMap OutPoint WalletTxOut) (input : PsetInput) (output : PsetOutput) :
      takeProposal x w { t with issuanceRequest := r } utxos input output =
        t.takeProposal x w utxos input output := by
    simp only [takeProposal, takeDraft, completeTake, hpay, addCoins, chargeFee]
  simp only [finishLiquidexTake, withProposal, htake]

theorem finishInner_liquidex (hliquidex : t.isLiquidexMake = true ∨ t.liquidexProposals ≠ [])
    (r : IssuanceRequest) :
    TxBuilder.finishInner x w { t with issuanceRequest := r } = t.finishInner x w := by
  have hmakes : finishLiquidexMake x w { t with issuanceRequest := r } =
      t.finishLiquidexMake x w := rfl
  unfold finishInner
  rw [hmakes, finishLiquidexTake_request]
  cases hmake : t.isLiquidexMake with
  | true => simp only [if_true]
  | false =>
    have htake : t.liquidexProposals.isEmpty = false := by
      simpa [hmake] using hliquidex
    simp only [htake, Bool.not_false, if_true]

end Finished

/-- **What a reissuance mints.** Outside LiquiDEX, where the request plays no part, the input chosen
for a reissuance spends the token's coin and issues the amount. The ids that consensus derives for
it are the asset that was asked for and the asset of that coin if and only if the coin is blinded
and the issuance that was found is a new one of an explicit amount. -/
theorem reissuance_mints_iff (x : Builder) (w : Wollet) (t : TxBuilder) (p : Pset) (asset : AssetId)
    (satoshi : UInt64) (address : Option Address) (tx : Option Transaction)
    (hrequest : t.issuanceRequest = .reissuance asset satoshi address tx)
    (h : t.finishInner x w = .ok p) : (t.isLiquidexMake = true ∨ t.liquidexProposals ≠ [] →
      ∀ r, TxBuilder.finishInner x w { t with issuanceRequest := r } = .ok p) ∧
    (t.isLiquidexMake = false → t.liquidexProposals = [] →
      ∃ all selected txin c i, w.utxosMap = .ok all ∧
        t.selectedCoins (t.candidates all) = .ok selected ∧
        TxBuilder.issuingInput x w asset tx = some txin ∧
        tokenCoin x (t.candidates all) (t.coins x (t.candidates all) selected)
          (txin.issuanceIds x.hash).2 = some c ∧
        i ∈ p.inputs ∧ i.spent = c.spent ∧ i.issuanceValueAmount = some satoshi ∧
        (x.hash.CollisionFree (reissuanceEntropies x.hash txin c) →
          (i.issuanceIds x.hash = (asset, c.secrets.asset) ↔ Reissuable txin c))) := by
  refine ⟨fun hliquidex r => ?_, fun hmake htake => ?_⟩
  · rw [finishInner_liquidex hliquidex, h]
  · obtain ⟨b', hrun⟩ := finishInner_ok h
    rw [hmake, htake] at hrun
    obtain ⟨f⟩ := finishPlain_ok hrun
    have hissues := f.issues
    rw [hrequest] at hissues
    obtain ⟨details, c, i, hdetails, hcoin, htoken, hi, hspent, hvalue, hids⟩ :=
      hissues.reissuance_input f.grows
    obtain ⟨txin, htxin, txid, vin, rfl⟩ := issuanceOf_ok hdetails
    refine ⟨f.all, f.selected, txin, c, t.signal i, f.utxosMap, f.selectedCoins, htxin, hcoin, ?_,
      ?_, ?_, fun hfree => ?_⟩
    · rw [f.inputs]
      exact mem_map_of_mem hi
    · rw [signal_spent, hspent]
    · rw [(signal_issuance (x := x) i).2, hvalue]
    · have hasset : (txin.issuanceIds x.hash).1 = asset := issuingInput_asset htxin
      rw [(signal_issuance i).1, hids, ← ids_eq_iff hfree, htoken, ← hasset]
      rfl

/-! ## Three ways to miss the asset -/

namespace TokenHeld

def env : Env := Concrete.env (fun _ => 7) [Concrete.script 0]

def wallet : Wollet :=
  Concrete.funded env [⟨[], [⟨.explicit 1, .explicit 100000, .null, Concrete.script 0, none⟩]⟩]

def x : Builder :=
  { Concrete.builder env with
    hash :=
      { generateAssetEntropy := fun o contractHash =>
          o.txid + BitVec.ofNat 256 o.vout + contractHash
        fromEntropy := fun entropy => 4 * entropy
        reissuanceTokenFromEntropy := fun entropy confidential =>
          4 * entropy + if confidential then 2 else 1 } }

def issuing (amount : Value) : Transaction :=
  ⟨[⟨⟨5, 0⟩, ⟨.zero, 0, amount, .explicit 1⟩⟩], []⟩

def reissuing : Transaction := ⟨[⟨⟨9, 0⟩, ⟨.one, 5, .explicit 100, .null⟩⟩], []⟩

def token (asset : AssetId) (assetBf : Tweak) : ExternalUtxo where
  outpoint := ⟨30, 0⟩
  txout := ⟨.explicit asset, .explicit 1, .null, Concrete.script 2, none⟩
  tx := none
  unblinded := ⟨asset, assetBf, 1, .zero⟩
  maxWeightToSatisfy := 108

def reissue (coin : ExternalUtxo) (tx : Transaction) : TxBuilder :=
  { TxBuilder.new 1 with
    externalUtxos := [coin]
    issuanceRequest := .reissuance 20 500 none (some tx) }

def Misses (p : Pset) (token : AssetId) : Prop :=
  ∀ i ∈ p.inputs, i.issuanceValueAmount = some 500 → i.issuanceIds x.hash ≠ (20, token)

def blinded : TxBuilder := reissue (token 21 .one) (issuing (.explicit 1000))

def blindedCoin : Coin := (token 21 .one).coin

theorem blinded_collisionFree : x.hash.CollisionFree [0, 5, 35] := by
  refine ⟨by decide, ?_, ?_⟩
  · intro e he e' he' hsame
    simp only [mem_cons, not_mem_nil, or_false] at he he'
    rcases he with rfl | rfl | rfl <;> rcases he' with rfl | rfl | rfl
    all_goals first
      | rfl
      | exact absurd hsame (by decide)
  · intro e he
    simp only [mem_cons, not_mem_nil, or_false] at he
    rcases he with rfl | rfl | rfl <;> decide

theorem blinded_finishes : Concrete.finishes x wallet blinded = true := by decide

/-- With a blinded token and a new issuance of an explicit amount the asset is reissued. -/
theorem reissuance_mints_blinded :
    ∃ i ∈ (Concrete.finished x wallet blinded).inputs, i.spent = blindedCoin.spent ∧
      i.issuanceIds x.hash = (20, 21) := by
  obtain ⟨all, selected, txin, c, i, hall, hselected, htxin, hcoin, hi, hspent, -, hiff⟩ :=
    (reissuance_mints_iff x wallet blinded _ 20 500 none (some (issuing (.explicit 1000))) rfl
      (Concrete.finishInner_finished blinded_finishes)).2 rfl rfl
  have hvalue : wallet.utxosMap = .ok (Concrete.value wallet.utxosMap ∅) :=
    Concrete.eq_ok_value (by decide)
  rw [hvalue] at hall
  cases hall
  cases hselected
  cases htxin
  have htoken : tokenCoin x (blinded.candidates (Concrete.value wallet.utxosMap ∅))
      (blinded.coins x (blinded.candidates (Concrete.value wallet.utxosMap ∅)) []) 21 =
        some blindedCoin := by decide
  have hc : c = blindedCoin := Option.some.inj (hcoin.symm.trans htoken)
  subst hc
  refine ⟨i, hi, hspent, (hiff ?_).2 ⟨by decide, rfl, rfl⟩⟩
  exact blinded_collisionFree

/-- **The asset is missed** with an explicit token, with an issuance transaction that is itself a
reissuance, and with a confidential issuance. -/
theorem reissuance_misses :
    (∃ p, (reissue (token 21 .zero) (issuing (.explicit 1000))).finishInner x wallet = .ok p ∧
        Misses p 21) ∧
      (∃ p, (reissue (token 21 .one) reissuing).finishInner x wallet = .ok p ∧ Misses p 21) ∧
      ∃ p, (reissue (token 22 .one) (issuing (.confidential 3))).finishInner x wallet =
          .ok p ∧ Misses p 22 := by
  have hexplicit : Concrete.finishes x wallet
      (reissue (token 21 .zero) (issuing (.explicit 1000))) = true := by decide
  have hagain : Concrete.finishes x wallet (reissue (token 21 .one) reissuing) = true := by
    decide
  have hconfidential : Concrete.finishes x wallet
      (reissue (token 22 .one) (issuing (.confidential 3))) = true := by decide
  exact ⟨⟨_, Concrete.finishInner_finished hexplicit, by unfold Misses; decide⟩,
    ⟨_, Concrete.finishInner_finished hagain, by unfold Misses; decide⟩,
    ⟨_, Concrete.finishInner_finished hconfidential, by unfold Misses; decide⟩⟩

end TokenHeld

end Swk
