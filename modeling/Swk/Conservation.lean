import Mathlib.Algebra.BigOperators.Group.List.Basic
import Swk.Inputs

/-!
# Nothing is lost and nothing appears

For each asset, what the inputs of a finished transaction carry and issue is what its outputs pay.
The transaction is put together in phases, and each has its share: the assets other than the fee
asset balance by themselves, change and fee make up for the rest, and an issuance pays out what it
issues. Two of these can go wrong. A reissuance pays out the requested asset, but what the input
issues is given by the nonce and the entropy, and these make another asset if the token's coin is
explicit. And what is requested of the fee's asset may not fit in a `u64` together with the fee:
then the outputs pay too much (`Settles.total`), and no issuance makes up for it.
-/

namespace Swk

open List UInt64

/-! ## Amounts of an asset -/

def PsetInput.spentOf (i : PsetInput) (a : AssetId) : Nat :=
  if i.asset = some a then (i.amount.getD 0).toNat else 0

/-- What an input issues of an asset, as the asset itself or as its token. -/
def PsetInput.issuedOf (h : IssuanceHash) (i : PsetInput) (a : AssetId) : Nat :=
  (if (i.issuanceIds h).1 = a then (i.issuanceValueAmount.getD 0).toNat else 0) +
    if (i.issuanceIds h).2 = a then (i.issuanceInflationKeys.getD 0).toNat else 0

def PsetOutput.paidOf (o : PsetOutput) (a : AssetId) : Nat :=
  if o.asset = some a then (o.amount.getD 0).toNat else 0

namespace Pset

def spent (p : Pset) (a : AssetId) : Nat := (p.inputs.map (·.spentOf a)).sum

def issued (h : IssuanceHash) (p : Pset) (a : AssetId) : Nat := (p.inputs.map (·.issuedOf h a)).sum

def paid (p : Pset) (a : AssetId) : Nat := (p.outputs.map (·.paidOf a)).sum

/-- Each asset that comes in or is issued goes out. -/
def Conserves (h : IssuanceHash) (p : Pset) : Prop := ∀ a, p.spent a + p.issued h a = p.paid a

end Pset

def amountOf {α : Type} (asset : α → AssetId) (value : α → UInt64) (l : List α) (a : AssetId) :
    Nat :=
  (l.map fun e => if asset e = a then (value e).toNat else 0).sum

section AmountOf

variable {α : Type} {asset : α → AssetId} {value : α → UInt64}

@[simp] theorem amountOf_nil (a : AssetId) : amountOf asset value [] a = 0 := rfl

@[simp] theorem amountOf_cons (e : α) (l : List α) (a : AssetId) : amountOf asset value (e :: l) a =
      (if asset e = a then (value e).toNat else 0) + amountOf asset value l a := by
  simp [amountOf]

@[simp] theorem amountOf_append (l l' : List α) (a : AssetId) :
    amountOf asset value (l ++ l') a = amountOf asset value l a + amountOf asset value l' a := by
  simp [amountOf]

theorem amountOf_of_asset {l : List α} {c : AssetId} (h : ∀ e ∈ l, asset e = c) (a : AssetId) :
    amountOf asset value l a = if c = a then total value l else 0 := by
  induction l with
  | nil => simp [total]
  | cons e l ih =>
    have he := h e mem_cons_self
    rw [amountOf_cons, ih fun e' he' => h e' (mem_cons_of_mem _ he'), total_cons, he]
    split <;> rfl

theorem amountOf_flatMap {keys : List AssetId} (hnodup : keys.Nodup) {f : AssetId → List α}
    (hf : ∀ k ∈ keys, ∀ e ∈ f k, asset e = k) (a : AssetId) :
    amountOf asset value (keys.flatMap f) a = if a ∈ keys then total value (f a) else 0 := by
  induction keys with
  | nil => rfl
  | cons k keys ih =>
    obtain ⟨hk, hkeys⟩ := nodup_cons.1 hnodup
    rw [flatMap_cons, amountOf_append, amountOf_of_asset (hf k mem_cons_self),
      ih hkeys fun k' hk' => hf k' (mem_cons_of_mem _ hk')]
    by_cases hka : k = a
    · subst hka
      simp [hk]
    · simp [hka, Ne.symm hka]

end AmountOf

abbrev coinsWorth (l : List Coin) (a : AssetId) : Nat :=
  amountOf (fun c : Coin => c.secrets.asset) Coin.value l a

abbrev recipientsGet (l : List Recipient) (a : AssetId) : Nat :=
  amountOf (fun r : Recipient => r.asset) (fun r => r.satoshi) l a

theorem sum_paidOf (l : List Recipient) (a : AssetId) :
    ((l.map (·.output)).map (·.paidOf a)).sum = recipientsGet l a := by
  simp [amountOf, Function.comp_def, PsetOutput.paidOf, Recipient.output]

theorem paidOf_feeOutput (q : UInt64) (asset a : AssetId) :
    (feeOutput q asset).paidOf a = if asset = a then q.toNat else 0 := by
  simp [PsetOutput.paidOf, feeOutput, PsetOutput.newExplicit]

theorem sum_spentOf {l : List PsetInput} {coins : List Coin}
    (h : l.map (·.spent) = coins.map (·.spent)) (a : AssetId) :
    (l.map (·.spentOf a)).sum = coinsWorth coins a := by
  have hread := congrArg (map fun s : OutPoint × Option AssetId × Option UInt64 =>
    if s.2.1 = some a then (s.2.2.getD 0).toNat else 0) h
  rw [map_map, map_map] at hread
  have hsum := congrArg sum hread
  simpa [Function.comp_def, PsetInput.spent, Coin.spent, amountOf, Coin.value,
    PsetInput.spentOf] using hsum

theorem total_sublist {α : Type} {value : α → UInt64} {l l' : List α} (h : l.Sublist l') :
    total value l ≤ total value l' := by
  induction h with
  | slnil => exact Nat.le_refl _
  | cons a _ ih =>
    rw [total_cons]
    omega
  | cons_cons a _ ih =>
    rw [total_cons, total_cons]
    omega

/-! ## Assets that balance by themselves -/

section Phases

variable {x : Builder} {w : Wollet} {t : TxBuilder} {utxos : HashMap OutPoint WalletTxOut}
variable {selected : List WalletTxOut}

namespace TxBuilder

theorem externalsOf_asset (asset : AssetId) :
    ∀ c ∈ t.externalsOf asset, c.secrets.asset = asset := by
  intro c hc
  obtain ⟨u, hu, rfl⟩ := mem_map.1 hc
  exact of_decide_eq_true (mem_filter.1 hu).2

/-- The coins of the wallet of an asset: those selected, or all. -/
def walletCoins (x : Builder) (t : TxBuilder) (utxos : HashMap OutPoint WalletTxOut)
    (selected : List WalletTxOut) (asset : AssetId) : List WalletTxOut :=
  if t.selectedUtxos.isSome then selected.filter fun u => u.unblinded.asset = asset
  else coinsOf x utxos asset

/-- What there is of an asset: in external utxos, and in coins of the wallet. -/
def available (x : Builder) (t : TxBuilder) (utxos : HashMap OutPoint WalletTxOut)
    (selected : List WalletTxOut) (asset : AssetId) : Nat :=
  total Coin.value (t.externalsOf asset ++ (t.walletCoins x utxos selected asset).map (·.coin))

theorem walletCoins_asset {asset : AssetId} {u : WalletTxOut}
    (hu : u ∈ t.walletCoins x utxos selected asset) : u.unblinded.asset = asset := by
  unfold walletCoins at hu
  split at hu
  · exact of_decide_eq_true (mem_filter.1 hu).2
  · exact (mem_coinsOf.1 hu).2

theorem drawn_sublist_walletCoins (asset : AssetId) :
    (t.drawn x utxos selected asset).Sublist (t.walletCoins x utxos selected asset) := by
  unfold walletCoins
  cases hsome : t.selectedUtxos.isSome with
  | true =>
    rw [drawn, drawnFor, if_pos hsome, if_pos rfl]
  | false =>
    rw [if_neg Bool.false_ne_true]
    exact drawn_sublist hsome asset

theorem policyCoins_eq : t.policyCoins x utxos selected =
    t.walletCoins x utxos selected t.policyAsset := rfl

theorem coinsFor_asset (asset : AssetId) :
    ∀ c ∈ t.coinsFor x utxos selected asset, c.secrets.asset = asset := by
  intro c hc
  rcases mem_append.1 hc with hc | hc
  · exact externalsOf_asset asset c hc
  · obtain ⟨u, hu, rfl⟩ := mem_map.1 hc
    exact walletCoins_asset ((drawn_sublist_walletCoins asset).subset hu)

theorem policySpent_asset :
    ∀ c ∈ t.policySpent x utxos selected, c.secrets.asset = t.policyAsset := by
  intro c hc
  rcases mem_append.1 hc with hc | hc
  · exact externalsOf_asset _ c hc
  · obtain ⟨u, hu, rfl⟩ := mem_map.1 hc
    rw [policyCoins_eq] at hu
    exact walletCoins_asset hu

theorem total_coinsFor_le (asset : AssetId) : total Coin.value (t.coinsFor x utxos selected asset) ≤
      t.available x utxos selected asset :=
  total_sublist ((List.Sublist.refl _).append ((drawn_sublist_walletCoins asset).map _))

theorem total_policySpent : total Coin.value (t.policySpent x utxos selected) =
      t.available x utxos selected t.policyAsset := rfl

theorem coinsWorth_coins (a : AssetId) : coinsWorth (t.coins x utxos selected) a =
      (if a ∈ t.assets x selected then total Coin.value (t.coinsFor x utxos selected a) else 0) +
        if t.policyAsset = a then total Coin.value (t.policySpent x utxos selected) else 0 := by
  rw [coins, coinsWorth, amountOf_append, amountOf_flatMap assets_nodup fun k _ => coinsFor_asset k,
    amountOf_of_asset policySpent_asset]

theorem recipientsOf_asset (asset : AssetId) : ∀ r ∈ t.recipientsOf asset, r.asset = asset :=
  fun _ hr => of_decide_eq_true (mem_filter.1 hr).2

theorem IsChange.asset {change : AssetId → Option Recipient} {a : AssetId}
    (h : t.IsChange x w utxos selected change a) : ∀ r ∈ change a, r.asset = a := by
  intro r hr
  unfold IsChange at h
  split at h
  · rw [h] at hr
    exact absurd hr (Option.not_mem_none r)
  · rw [show change a = some r from hr] at h
    exact h.2.amount.2

theorem paid_paidOf {change : AssetId → Option Recipient}
    (hchange : ∀ a ∈ t.assets x selected, t.IsChange x w utxos selected change a) (a : AssetId) :
    ((t.paid x selected change).map (·.paidOf a)).sum = (if a ∈ t.assets x selected then
        t.requested a + total (·.satoshi) (change a).toList else 0) +
        if t.policyAsset = a then t.requested t.policyAsset else 0 := by
  have hasset : ∀ b ∈ t.assets x selected, ∀ r ∈ t.recipientsOf b ++ (change b).toList,
      r.asset = b := by
    intro b hb r hr
    rcases mem_append.1 hr with hr | hr
    · exact recipientsOf_asset b r hr
    · exact (hchange b hb).asset r (Option.mem_toList.1 hr)
  rw [paid_eq_map, sum_paidOf, recipientsGet, amountOf_append, amountOf_flatMap assets_nodup hasset,
    amountOf_of_asset (recipientsOf_asset _), total_append]
  rfl

end TxBuilder

variable {sums : UInt64 × UInt64} {change c c' : Option Recipient} {q rate q' satoshi : UInt64}
  {dust : Nat} {i : PsetInput} {address : Option Address} {recipients : List Recipient}

theorem IsChangeOf.total {asset : AssetId} (h : IsChangeOf x w sums asset change) :
    sums.2.toNat + Swk.total (·.satoshi) change.toList = sums.1.toNat := by
  cases change with
  | none =>
    rw [show sums.1 = sums.2 from h]
    rfl
  | some r =>
    obtain ⟨hlt, hr⟩ := h
    have hle := UInt64.le_of_lt hlt
    rw [Option.toList_some, total_cons, hr.amount.1, UInt64.toNat_sub_of_le _ _ hle]
    have := le_iff_toNat_le.1 hle
    simp only [Swk.total, map_nil, sum_nil]
    omega

/-! ## Change and fee -/

/-- What is left after two subtractions: too much if the amounts that are subtracted do not fit. -/
theorem toNat_sub_sub {a c : UInt64} (h : c + q ≤ a) : ∃ excess,
    c.toNat + ((a - c - q).toNat + q.toNat) = a.toNat + excess ∧
      (excess = 0 ↔ c.toNat + q.toNat < 2 ^ 64) := by
  have hle := le_iff_toNat_le.1 h
  have ha := a.toNat_lt
  have hc := c.toNat_lt
  have hq := q.toNat_lt
  rw [UInt64.toNat_add] at hle
  rw [UInt64.toNat_sub, UInt64.toNat_sub]
  by_cases hfits : c.toNat + q.toNat < 2 ^ 64
  · exact ⟨0, by omega, iff_of_true rfl hfits⟩
  · exact ⟨2 ^ 64, by omega, iff_of_false (Nat.two_pow_pos 64).ne' hfits⟩

theorem policy_ne {asset : AssetId} (h : t.feeInAsset = some (asset, rate)) :
    asset ≠ t.policyAsset :=
  TxBuilder.isFeeAsset_ne_policy (TxBuilder.isFeeAsset_iff.2 ⟨rate, h⟩)

def settledOf (x : Builder) (t : TxBuilder) (recipients : List Recipient) (q : UInt64)
    (a : AssetId) : Nat :=
  recipientsGet recipients a + if t.feePaidIn x = a then q.toNat else 0

theorem ChangeSettled.asset {change : UInt64} {a : AssetId}
    (h : ChangeSettled change q dust c c' q') (hc : ∀ r ∈ c, r.asset = a) :
    ∀ r ∈ c'.toList, r.asset = a := by
  cases h with
  | missing => simp
  | kept r => simpa [Recipient.withAmount] using hc r rfl
  | folded r => simp

theorem IsChangeOf.asset {asset : AssetId} (h : IsChangeOf x w sums asset change) :
    ∀ r ∈ change, r.asset = asset := by
  intro r hr
  rw [show change = some r from hr] at h
  exact h.2.amount.2

/-- **The fee fits** in a `u64` together with what is requested of its asset. Otherwise the change
that is left wraps; this does no harm if it comes out as dust, which is folded into the fee. -/
def TxBuilder.FeeInRange (t : TxBuilder) (sums fee : UInt64 × UInt64) (weighed : UInt64) : Prop :=
  match t.feeInAsset with
  | none => sums.2.toNat + weighed.toNat < 2 ^ 64
  | some (_, rate) =>
    fee.2.toNat + (feeAmountX weighed rate).toNat < 2 ^ 64 ∨ fee.2 < fee.1 ∧
      (fee.1 - fee.2 - feeAmountX weighed rate).toNat ≤ TxBuilder.convertValue 294 rate.toNat

theorem ChangeSettled.total {fee : UInt64 × UInt64} {asset : AssetId}
    (h : ChangeSettled (fee.1 - fee.2 - q) q dust c c' q') (hc : IsChangeOf x w fee asset c)
    (hpos : 0 < q) (hroom : fee.2 + q ≤ fee.1) : ∃ excess,
      fee.2.toNat + (Swk.total (·.satoshi) c'.toList + q'.toNat) = fee.1.toNat + excess ∧
        (excess = 0 ↔ fee.2.toNat + q.toNat < 2 ^ 64 ∨
          fee.2 < fee.1 ∧ (fee.1 - fee.2 - q).toNat ≤ dust) := by
  obtain ⟨excess, htotal, hexcess⟩ := toNat_sub_sub hroom
  have hpos := lt_iff_toNat_lt.1 hpos
  cases h with
  | missing =>
    -- nothing is left, so the fee comes on top
    obtain ⟨sumIn, sumOut⟩ := fee
    obtain rfl : sumIn = sumOut := hc
    rw [UInt64.toNat_zero] at hpos
    refine ⟨q.toNat, by simp [Swk.total], iff_of_false (by omega) ?_⟩
    rintro (hfits | ⟨hlt, -⟩)
    · have hzero := hexcess.2 hfits
      simp only at htotal
      omega
    · exact absurd hlt (UInt64.lt_irrefl _)
  | kept r hkept =>
    refine ⟨excess, ?_, hexcess.trans (or_iff_left fun h => absurd hkept (by omega)).symm⟩
    simpa [Recipient.withAmount, Swk.total] using htotal
  | folded r hdust =>
    obtain ⟨hlt, -⟩ := hc
    have hle := UInt64.le_of_lt hlt
    have hsum : q + (fee.1 - fee.2 - q) = fee.1 - fee.2 := by
      rw [UInt64.add_comm, UInt64.sub_add_cancel]
    refine ⟨0, ?_, iff_of_true rfl (.inr ⟨hlt, Nat.not_lt.1 hdust⟩)⟩
    rw [hsum, UInt64.toNat_sub_of_le _ _ hle]
    have hle := le_iff_toNat_le.1 hle
    simp only [Option.toList_none, Swk.total, map_nil, sum_nil]
    omega

section Settles

variable {sums fee : UInt64 × UInt64} {recipients : List Recipient} {weighed q : UInt64}
variable (h : Settles x w t sums fee weighed recipients q)
  (hpolicy : t.policyAsset = x.env.policyAsset)

include h hpolicy

/-- **Change and fee make up for the rest**, and for no less; for no more if the fee fits. -/
theorem Settles.total : ∃ excess,
      sums.2.toNat + settledOf x t recipients q t.policyAsset =
          sums.1.toNat + (if t.feePaidIn x = t.policyAsset then excess else 0) ∧
        (∀ asset rate, t.feeInAsset = some (asset, rate) →
          fee.2.toNat + settledOf x t recipients q asset = fee.1.toNat + excess) ∧
        (excess = 0 ↔ t.FeeInRange sums fee weighed) := by
  unfold settledOf TxBuilder.FeeInRange
  cases h with
  | policy hfee hroom hr =>
    obtain ⟨excess, htotal, hexcess⟩ := toNat_sub_sub (UInt64.le_of_lt hroom)
    have hpaidIn : t.feePaidIn x = t.policyAsset := by
      rw [TxBuilder.feePaidIn, hfee, hpolicy]
      rfl
    refine ⟨excess, ?_, by simp [hfee], by rw [hfee]; exact hexcess⟩
    rw [recipientsGet, amountOf_cons, amountOf_nil, hr.amount.1, hr.amount.2, if_pos hpolicy.symm,
      if_pos hpaidIn, if_pos hpaidIn]
    exact htotal
  | asset hfee howned hmissing hcovered hchange hpos hroom hsettled =>
    rename_i asset rate p c c'
    have hne := policy_ne hfee
    have hassets := hsettled.asset hchange.asset
    obtain ⟨excess, htotal, hexcess⟩ := hsettled.total hchange hpos hroom
    have howned' : ∀ r ∈ p.toList, r.asset = t.policyAsset := by
      intro r hr
      rw [(howned r (Option.mem_toList.1 hr)).amount.2, hpolicy]
    refine ⟨excess, ?_, ?_, by rw [hfee]; exact hexcess⟩
    · rw [feePaidIn_eq hfee, if_neg hne, if_neg hne, recipientsGet, amountOf_append,
        amountOf_of_asset hassets, if_neg hne, amountOf_of_asset howned', if_pos rfl]
      have hle := le_iff_toNat_le.1 hcovered
      cases p with
      | none =>
        rw [hmissing.1 rfl]
        rfl
      | some r =>
        rw [Option.toList_some, total_cons, (howned r rfl).amount.1,
          UInt64.toNat_sub_of_le _ _ hcovered]
        simp only [Swk.total, map_nil, sum_nil]
        omega
    · intro asset' rate' hfee'
      rw [hfee] at hfee'
      cases hfee'
      rw [feePaidIn_eq hfee, if_pos rfl, recipientsGet, amountOf_append, amountOf_of_asset hassets,
        if_pos rfl, amountOf_of_asset howned', if_neg hne.symm, Nat.zero_add]
      exact htotal

theorem Settles.other_total {a : AssetId} (ha : t.policyAsset ≠ a) (hnot : t.isFeeAsset a = false) :
    t.feePaidIn x ≠ a ∧ settledOf x t recipients q a = 0 := by
  unfold settledOf
  cases h with
  | policy hfee hroom hr =>
    have hpaidIn : t.feePaidIn x = t.policyAsset := by
      rw [TxBuilder.feePaidIn, hfee, hpolicy]
      rfl
    rw [recipientsGet, amountOf_cons, amountOf_nil, hr.amount.2, hpaidIn, if_neg ha,
      if_neg (hpolicy ▸ ha)]
    exact ⟨ha, rfl⟩
  | asset hfee howned hmissing hcovered hchange hpos hroom hsettled =>
    rename_i asset rate p c c'
    have hne : asset ≠ a := by
      intro heq
      rw [TxBuilder.isFeeAsset_iff.2 ⟨rate, heq ▸ hfee⟩] at hnot
      cases hnot
    have howned' : ∀ r ∈ p.toList, r.asset = t.policyAsset := by
      intro r hr
      rw [(howned r (Option.mem_toList.1 hr)).amount.2, hpolicy]
    rw [feePaidIn_eq hfee, if_neg hne, recipientsGet, amountOf_append,
      amountOf_of_asset (hsettled.asset hchange.asset), if_neg hne, amountOf_of_asset howned',
      if_neg ha]
    exact ⟨hne, rfl⟩

end Settles

/-! ## Issuance -/

def issuedBy (h : IssuanceHash) (l : List PsetInput) (a : AssetId) : Nat :=
  (l.map (·.issuedOf h a)).sum

variable {h : IssuanceHash} {coins : List Coin} {b : Build} {outs : List PsetOutput} {b' : Build}
  {extra : List Coin}

theorem PsetInput.Spends.issuedOf {c : Coin} (hi : i.Spends c) (a : AssetId) :
    i.issuedOf h a = 0 := by
  rw [PsetInput.issuedOf, hi.value, hi.keys]
  simp

theorem issuedBy_spends {l : List PsetInput} (hl : List.Forall₂ PsetInput.Spends l coins)
    (a : AssetId) : issuedBy h l a = 0 := by
  induction hl with
  | nil => rfl
  | cons hi _ ih =>
    rw [issuedBy, map_cons, sum_cons, hi.issuedOf, Nat.zero_add]
    exact ih

theorem Grows.spends (h : Grows (TxBuilder.start w) coins outs b) :
    List.Forall₂ PsetInput.Spends b.pset.inputs coins := by
  obtain ⟨l, hl, heq⟩ := h.inputs
  rw [heq]
  exact hl

theorem Rewrites.issuedBy {idx : Nat} {i' : PsetInput} (hr : Rewrites b idx i i' b')
    (hspends : List.Forall₂ PsetInput.Spends b.pset.inputs coins) (a : AssetId) :
    Swk.issuedBy h b'.pset.inputs a = i'.issuedOf h a ∧ ∃ c, coins[idx]? = some c ∧ i.Spends c := by
  obtain ⟨l₁, l₂, hb, hlength, hb'⟩ := hr.inputs
  rw [hb] at hspends
  have hfirst := forall₂_take idx hspends
  have hlast := forall₂_drop idx hspends
  rw [← hlength, take_left] at hfirst
  rw [← hlength, drop_left, forall₂_cons_left_iff] at hlast
  obtain ⟨c, rest, hi, hrest, hdrop⟩ := hlast
  refine ⟨?_, c, ?_, hi⟩
  · rw [hb', Swk.issuedBy, map_append, sum_append, map_cons, sum_cons]
    show Swk.issuedBy h l₁ a + (i'.issuedOf h a + Swk.issuedBy h l₂ a) = _
    rw [issuedBy_spends hfirst, issuedBy_spends hrest, Nat.zero_add, Nat.add_zero]
  · rw [← hlength, ← head?_drop, hdrop]
    rfl

theorem PaysTo.get {asset : AssetId} {r : Recipient} (h : PaysTo x w false satoshi asset address r)
    (a : AssetId) :
    recipientsGet [r] a = if asset = a then satoshi.toNat else 0 := by
  rw [recipientsGet, amountOf_cons, amountOf_nil, h.amount.1, h.amount.2, Nat.add_zero]

theorem IssuedIf.get {asset : AssetId} {l : List Recipient}
    (h : IssuedIf x w satoshi asset address l) (a : AssetId) :
    recipientsGet l a = if asset = a then satoshi.toNat else 0 := by
  rcases h with ⟨-, r, hr, rfl⟩ | ⟨rfl, rfl⟩
  · exact hr.get a
  · simp

theorem TokenInput.get {token : AssetId} {c : Coin} {change : List Recipient}
    (h : TokenInput x w utxos coins token c extra change) (a : AssetId) :
    coinsWorth extra a = recipientsGet change a := by
  cases h with
  | found => rfl
  | added u hu hnone r hr =>
    rw [coinsWorth, recipientsGet, amountOf_cons, amountOf_cons, amountOf_nil, amountOf_nil,
      hr.amount.1, hr.amount.2]
    rw [show u.coin.secrets.asset = token from (mem_coinsOf.1 hu).2]
    rfl

/-- The asset a coin issues when it is spent with a nonce that is its asset blinding factor. -/
def mintedBy (x : Builder) (c : Coin) (entropy : BitVec 256) : AssetId :=
  (x.hash.ids c.outpoint c.secrets.assetBf entropy false).1

/-- **A new issuance pays out what it issues.** -/
theorem Issues.issuance_get {request : IssuanceRequest}
    (hb : Grows (TxBuilder.start w) coins outs b)
    (h : Issues x w utxos coins b request extra recipients b')
    (hnot : ∀ asset satoshi address tx, request ≠ .reissuance asset satoshi address tx)
    (a : AssetId) :
    coinsWorth extra a + issuedBy x.hash b'.pset.inputs a = recipientsGet recipients a := by
  cases h with
  | none =>
    rw [issuedBy_spends hb.spends]
    rfl
  | issuance hrewrites hvalue hkeys hasset htoken hgrows =>
    rename_i satoshiAsset satoshiToken _ _ _ i i' b₁ lAsset lToken
    obtain ⟨hissued, c, -, hi⟩ := hrewrites.issuedBy (h := x.hash) hb.spends a
    have hvalue' : (i'.issuanceValueAmount.getD 0) = satoshiAsset := by
      rw [hvalue, hi.value]
      split
      · rfl
      · rename_i hzero
        exact (UInt64.le_antisymm (UInt64.not_lt.1 hzero) UInt64.zero_le).symm
    have hkeys' : (i'.issuanceInflationKeys.getD 0) = satoshiToken := by
      rw [hkeys, hi.keys]
      split
      · rfl
      · rename_i hzero
        exact (UInt64.le_antisymm (UInt64.not_lt.1 hzero) UInt64.zero_le).symm
    rw [hgrows.same_inputs, hissued, PsetInput.issuedOf, hvalue', hkeys', recipientsGet,
      amountOf_append, coinsWorth, amountOf_nil, Nat.zero_add]
    exact congrArg₂ (· + ·) (hasset.get a).symm (htoken.get a).symm
  | reissuance => exact absurd rfl (hnot _ _ _ _)

/-- **A reissuance pays out what was asked for**, and issues what its input says. -/
theorem Issues.reissuance_get {asset : AssetId} {satoshiAsset : UInt64}
    {addressAsset : Option Address} {issuanceTx : Option Transaction}
    (hb : Grows (TxBuilder.start w) coins outs b)
    (h : Issues x w utxos coins b (.reissuance asset satoshiAsset addressAsset issuanceTx) extra
      recipients b') :
    ∃ details c, TxBuilder.issuanceOf x w asset issuanceTx = .ok details ∧
      tokenCoin x utxos coins details.token = some c ∧ ∀ a,
        coinsWorth extra a + issuedBy x.hash b'.pset.inputs a +
            (if asset = a then satoshiAsset.toNat else 0) =
          recipientsGet recipients a +
            if mintedBy x c details.entropy = a then satoshiAsset.toNat else 0 := by
  cases h with
  | reissuance hdetails hcoin hinput hidx hgrows hrewrites hvalue hkeys hids hissued hpaid =>
    rename_i details c change idx i i' b₁ b₂ r
    refine ⟨details, c, hdetails, hcoin, fun a => ?_⟩
    obtain ⟨hby, c', hc', hi⟩ := hrewrites.issuedBy (h := x.hash) (hb.trans hgrows).spends a
    rw [hidx] at hc'
    cases hc'
    have hout : i.previousOutput = c.outpoint := congrArg Prod.fst hi.spent
    have hissuedOf : i'.issuedOf x.hash a =
        if mintedBy x c details.entropy = a then satoshiAsset.toNat else 0 := by
      rw [PsetInput.issuedOf, hids, hout, hvalue, hkeys, hi.keys]
      simp only [Option.getD_some, Option.getD_none, UInt64.toNat_zero, ite_self, Nat.add_zero]
      rfl
    have hsplit : recipientsGet (change ++ [r]) a =
        recipientsGet change a + recipientsGet [r] a := amountOf_append _ _ _
    rw [hpaid.same_inputs, hby, hissuedOf, hinput.get a, hsplit, hissued.get a]
    omega

end Phases

/-! ## The whole transaction -/

namespace TxBuilder

variable {x : Builder} {w : Wollet} {t : TxBuilder} {p : Pset}

/-- The sums of what is asked for and of what there is fit in a `u64`, for each asset. -/
structure FitsU64 (x : Builder) (w : Wollet) (t : TxBuilder) : Prop where
  available : ∀ all selected, w.utxosMap = .ok all →
    t.selectedCoins (t.candidates all) = .ok selected →
    ∀ a, t.available x (t.candidates all) selected a < 2 ^ 64
  requested : ∀ a, t.requested a < 2 ^ 64

namespace Finished

variable (f : Finished x w t p) (a : AssetId)

theorem spent_eq :
    p.spent a = coinsWorth (t.coins x f.utxos f.selected) a + coinsWorth f.extra a := by
  rw [Pset.spent, sum_spentOf f.spent, Finished.coins, coinsWorth, amountOf_append]

theorem issued_eq (h : IssuanceHash) (a : AssetId) :
    p.issued h a = issuedBy h f.issued.pset.inputs a := by
  rw [Pset.issued, f.inputs, map_map, issuedBy]
  rfl

theorem paid_eq : p.paid a = ((t.paid x f.selected f.change).map (·.paidOf a)).sum +
      recipientsGet f.issuedTo a + settledOf x t f.settledTo f.fee a := by
  rw [Pset.paid, f.outputs, map_append, map_append, map_append, sum_append,
    sum_append, sum_append, sum_paidOf, sum_paidOf, settledOf, map_singleton,
    sum_singleton, paidOf_feeOutput]

theorem toNat_requested (hfits : t.FitsU64 x w) (a : AssetId) :
    (UInt64.ofNat (t.requested a)).toNat = t.requested a :=
  toNat_ofNat_of_lt' (hfits.requested a)

theorem toNat_spent (hfits : t.FitsU64 x w) {n : Nat} {a : AssetId}
    (hn : n ≤ t.available x f.utxos f.selected a) : (UInt64.ofNat n).toNat = n := by
  have hlt := hfits.available f.all f.selected f.utxosMap f.selectedCoins a
  exact toNat_ofNat_of_lt' (lt_of_le_of_lt hn hlt)

theorem change_balance (hfits : t.FitsU64 x w) {a : AssetId} (hmem : a ∈ t.assets x f.selected)
    (hnot : t.isFeeAsset a = false) : total Coin.value (t.coinsFor x f.utxos f.selected a) =
      t.requested a + total (·.satoshi) (f.change a).toList := by
  have hrequested := toNat_requested hfits a
  have hle : total Coin.value (t.coinsFor x f.utxos f.selected a) ≤
      t.available x f.utxos f.selected a := total_coinsFor_le a
  have hspent := f.toNat_spent hfits hle
  have hchange := f.isChange a hmem
  unfold IsChange at hchange
  rw [if_neg (Bool.eq_false_iff.1 hnot)] at hchange
  have htotal := hchange.total
  rw [sumsOf, hrequested] at htotal
  exact hspent.symm.trans htotal.symm

/-- **Before the issuance everything balances**, if the fee fits. If not, the outputs pay more. -/
theorem base_balance (hpolicy : t.policyAsset = x.env.policyAsset) (hfits : t.FitsU64 x w) :
    ∃ excess, (∀ a, coinsWorth (t.coins x f.utxos f.selected) a +
        (if t.feePaidIn x = a then excess else 0) =
          ((t.paid x f.selected f.change).map (·.paidOf a)).sum +
            settledOf x t f.settledTo f.fee a) ∧
      (excess = 0 ↔ t.FeeInRange (t.policySums x f.utxos f.selected)
        (t.feeSums x f.utxos f.selected) (x.calculateFee f.weight t.feeRate)) := by
  obtain ⟨excess, hpolicyTotal, hassetTotal, hexcess⟩ := f.settles.total hpolicy
  refine ⟨excess, fun a => ?_, hexcess⟩
  have hrequested := toNat_requested hfits a
  have hspent := f.toNat_spent hfits (total_coinsFor_le (t := t) a)
  rw [coinsWorth_coins, paid_paidOf f.isChange]
  by_cases ha : t.policyAsset = a
  · subst ha
    have hnot : t.policyAsset ∉ t.assets x f.selected := fun h => (mem_assets.1 h).1 rfl
    have hspent := f.toNat_spent hfits (le_of_eq (total_policySpent (t := t)))
    rw [if_neg hnot, if_neg hnot, if_pos rfl, if_pos rfl]
    change (UInt64.ofNat (t.requested t.policyAsset)).toNat + _ =
      (UInt64.ofNat (total Coin.value (t.policySpent x f.utxos f.selected))).toNat + _
      at hpolicyTotal
    rw [hrequested, hspent] at hpolicyTotal
    omega
  · rw [if_neg ha, if_neg ha, Nat.add_zero, Nat.add_zero]
    cases hisFee : t.isFeeAsset a with
    | true =>
      have hmem : a ∈ t.assets x f.selected := mem_assets.2 ⟨Ne.symm ha, .inr (.inr (.inr hisFee))⟩
      obtain ⟨rate, hrate⟩ := isFeeAsset_iff.1 hisFee
      have hnone : f.change a = none := by
        have hchange := f.isChange a hmem
        unfold IsChange at hchange
        rwa [if_pos hisFee] at hchange
      have htotal := hassetTotal a rate hrate
      have hsums : t.feeSums x (t.candidates f.all) f.selected =
          t.sumsOf x f.utxos f.selected a := by
        rw [feeSums, hrate]
        rfl
      rw [hsums, sumsOf, hrequested, hspent] at htotal
      rw [if_pos hmem, if_pos hmem, if_pos (feePaidIn_eq hrate), hnone]
      exact htotal.symm
    | false =>
      obtain ⟨hne, hsettled⟩ := f.settles.other_total hpolicy ha hisFee
      rw [hsettled, if_neg hne, Nat.add_zero, Nat.add_zero]
      by_cases hmem : a ∈ t.assets x f.selected
      · rw [if_pos hmem, if_pos hmem, f.change_balance hfits hmem hisFee]
      · rw [if_neg hmem, if_neg hmem]

theorem recipients_subperm (f : Finished x w t p) :
    (t.recipients.map (·.output)).Subperm p.outputs := by
  have hperm := recipientsOf_perm x t f.selected
  rw [allAssets, flatMap_append, flatMap_singleton] at hperm
  have hsub : (((t.assets x f.selected).flatMap t.recipientsOf ++
      t.recipientsOf t.policyAsset).map (·.output)).Sublist (t.paid x f.selected f.change) := by
    rw [map_append, map_flatMap]
    refine (List.Sublist.flatMap_right _ fun a _ => ?_).append (.refl _)
    exact (sublist_append_left _ _).map _
  have hpaid : (t.paid x f.selected f.change).Sublist p.outputs := by
    rw [f.outputs, append_assoc]
    exact sublist_append_left _ _
  exact (hperm.map _).symm.subperm.trans (hsub.trans hpaid).subperm

end Finished

/-- What a finished transaction should be: each asset balances, every recipient is paid in full,
and one explicit fee output comes after the outputs for recipients. -/
structure Accounted (x : Builder) (t : TxBuilder) (p : Pset) : Prop where
  conserves : p.Conserves x.hash
  recipients : (t.recipients.map (·.output)).Subperm p.outputs
  fee : ∃ (l : List Recipient) (q : UInt64),
    p.outputs = l.map (·.output) ++ [feeOutput q (t.feePaidIn x)]

/-- A reissuance, if there is one, issues the asset that was asked for: the coin that carries the
token makes that asset from the entropy of the issuance. -/
def MintsRequested (x : Builder) (w : Wollet) (t : TxBuilder) : Prop :=
  ∀ asset satoshi address tx, t.issuanceRequest = .reissuance asset satoshi address tx →
    satoshi ≠ 0 → ∀ all selected details c, w.utxosMap = .ok all →
    t.selectedCoins (t.candidates all) = .ok selected → issuanceOf x w asset tx = .ok details →
    tokenCoin x (t.candidates all) (t.coins x (t.candidates all) selected) details.token = some c →
    mintedBy x c details.entropy = asset

/-- **There is room for the fee** that the transaction is weighed at. -/
def RoomForFee (x : Builder) (w : Wollet) (t : TxBuilder) : Prop :=
  ∀ weighed all selected, t.weighedFee x w = some weighed → w.utxosMap = .ok all →
    t.selectedCoins (t.candidates all) = .ok selected →
    t.FeeInRange (t.policySums x (t.candidates all) selected)
      (t.feeSums x (t.candidates all) selected) weighed

namespace Finished

theorem roomForFee_iff (f : Finished x w t p) : t.RoomForFee x w ↔
    t.FeeInRange (t.policySums x f.utxos f.selected) (t.feeSums x f.utxos f.selected)
      (x.calculateFee f.weight t.feeRate) := by
  constructor
  · intro h
    exact h _ _ _ f.weighedFee_eq f.utxosMap f.selectedCoins
  · intro h weighed all selected hweighed hall hselected
    obtain rfl := Option.some.inj (f.weighedFee_eq.symm.trans hweighed)
    obtain rfl : f.all = all := Except.ok.inj (f.utxosMap.symm.trans hall)
    obtain rfl : f.selected = selected := Except.ok.inj (f.selectedCoins.symm.trans hselected)
    exact h

/-- **The issuance balances if it mints what was asked for**: otherwise it pays out one asset and
issues another. -/
theorem exists_minted (f : Finished x w t p) : ∃ (satoshi : Nat) (asked minted : AssetId),
    (∀ a, coinsWorth f.extra a + issuedBy x.hash f.issued.pset.inputs a +
        (if asked = a then satoshi else 0) =
      recipientsGet f.issuedTo a + if minted = a then satoshi else 0) ∧
    (t.MintsRequested x w ↔ satoshi = 0 ∨ minted = asked) := by
  have hissues := f.issues
  by_cases hreissues : ∃ asset satoshi address tx,
      t.issuanceRequest = .reissuance asset satoshi address tx
  · obtain ⟨asset, satoshi, address, tx, hrequest⟩ := hreissues
    rw [hrequest] at hissues
    obtain ⟨details, c, hdetails, hcoin, hget⟩ := hissues.reissuance_get f.grows
    refine ⟨satoshi.toNat, asset, mintedBy x c details.entropy, hget, ?_⟩
    have hzero : satoshi.toNat = 0 ↔ satoshi = 0 := UInt64.toNat_inj (b := 0)
    rw [hzero]
    constructor
    · intro h
      by_cases hne : satoshi = 0
      · exact .inl hne
      · exact .inr (h asset satoshi address tx hrequest hne f.all f.selected details c f.utxosMap
          f.selectedCoins hdetails hcoin)
    · intro h asset' satoshi' address' tx' hrequest' hne all selected details' c' hall hselected
        hdetails' hcoin'
      rw [hrequest] at hrequest'
      cases hrequest'
      rw [f.utxosMap] at hall
      cases hall
      rw [f.selectedCoins] at hselected
      cases hselected
      rw [hdetails] at hdetails'
      cases hdetails'
      rw [hcoin] at hcoin'
      cases hcoin'
      exact h.resolve_left hne
  · have hnot : ∀ asset satoshi address tx,
        t.issuanceRequest ≠ .reissuance asset satoshi address tx :=
      fun asset satoshi address tx h => hreissues ⟨asset, satoshi, address, tx, h⟩
    refine ⟨0, 0, 0, fun a => ?_, iff_of_true ?_ (.inl rfl)⟩
    · rw [hissues.issuance_get f.grows hnot a]
    · intro asset satoshi address tx hrequest
      exact absurd hrequest (hnot asset satoshi address tx)

theorem conserves_iff (f : Finished x w t p) (hpolicy : t.policyAsset = x.env.policyAsset)
    (hfits : t.FitsU64 x w) : p.Conserves x.hash ↔ t.MintsRequested x w ∧ t.RoomForFee x w := by
  obtain ⟨excess, hbase, hexcess⟩ := f.base_balance hpolicy hfits
  obtain ⟨satoshi, asked, minted, hissued, hmints⟩ := f.exists_minted
  rw [hmints, f.roomForFee_iff, ← hexcess]
  have hconserves : p.Conserves x.hash ↔ ∀ a, (if minted = a then satoshi else 0) =
      (if t.feePaidIn x = a then excess else 0) + if asked = a then satoshi else 0 := by
    refine forall_congr' fun a => ?_
    have hbase := hbase a
    have hissued := hissued a
    rw [f.spent_eq, f.issued_eq, f.paid_eq]
    omega
  rw [hconserves]
  constructor
  · intro h
    have hminted : satoshi = 0 ∨ minted = asked := by
      by_contra hnot
      rw [not_or] at hnot
      have hasked := h asked
      rw [if_neg hnot.2, if_pos rfl] at hasked
      omega
    refine ⟨hminted, ?_⟩
    have hpaidIn := h (t.feePaidIn x)
    rw [if_pos rfl] at hpaidIn
    rcases hminted with hzero | rfl
    · simp only [hzero, ite_self] at hpaidIn
      omega
    · omega
  · rintro ⟨hzero | rfl, rfl⟩ a
    · simp [hzero]
    · simp

end Finished

/-- **Nothing is lost and nothing appears.** A transaction that is finished without LiquiDEX, with
sums that fit, is accounted for if and only if a reissuance mints the asset it was asked for and
there is room for the fee. -/
theorem accounted_iff (x : Builder) (w : Wollet) (t : TxBuilder) (p : Pset)
    (hmake : t.isLiquidexMake = false) (htake : t.liquidexProposals = [])
    (hpolicy : t.policyAsset = x.env.policyAsset) (h : t.finishInner x w = .ok p)
    (hfits : t.FitsU64 x w) :
    t.Accounted x p ↔ t.MintsRequested x w ∧ t.RoomForFee x w := by
  obtain ⟨b', hrun⟩ := finishInner_ok h
  rw [hmake, htake] at hrun
  obtain ⟨f⟩ := finishPlain_ok hrun
  rw [← f.conserves_iff hpolicy hfits]
  exact ⟨fun h => h.conserves, fun h => ⟨h, f.recipients_subperm, f.fee_last⟩⟩

/-! ### Sums that fit -/

theorem total_perm {α : Type} {value : α → UInt64} {l l' : List α} (h : l.Perm l') :
    total value l = total value l' :=
  (h.map _).sum_eq

theorem available_le (hexternal : t.externalUtxos = []) (hselected : t.selectedUtxos = none)
    {utxos : HashMap OutPoint WalletTxOut} {selected : List WalletTxOut} (a : AssetId) :
    t.available x utxos selected a ≤ total (·.unblinded.value) utxos.values := by
  have hnone : t.externalsOf a = [] := by
    rw [externalsOf, hexternal]
    rfl
  have hall : t.walletCoins x utxos selected a = coinsOf x utxos a := by
    rw [walletCoins, hselected]
    rfl
  rw [available, hnone, hall, nil_append, total_coins]
  exact (total_sublist filter_sublist).trans_eq (total_perm (x.order.coins_perm _))

def worthFits (w : Wollet) (t : TxBuilder) : Bool :=
  match w.utxosMap with
  | .ok all => total (·.unblinded.value) (t.candidates all).values < 2 ^ 64
  | .error _ => false

theorem fitsU64_of_worthFits (hexternal : t.externalUtxos = []) (hselected : t.selectedUtxos = none)
    (hrecipients : t.recipients = []) (h : worthFits w t = true) : t.FitsU64 x w where
  available := by
    intro all selected hall _ a
    unfold worthFits at h
    rw [hall] at h
    exact lt_of_le_of_lt (available_le hexternal hselected a) (of_decide_eq_true h)
  requested := by
    intro a
    rw [requested, recipientsOf, hrecipients]
    exact Nat.two_pow_pos 64

end TxBuilder

/-! ## A token in the open -/

namespace ExplicitToken

def issuing : Transaction :=
  ⟨[⟨⟨5, 0⟩, ⟨.zero, 0, .explicit 1000, .explicit 1⟩⟩],
    [⟨.explicit 10, .explicit 1000, .null, Concrete.script 8, none⟩,
      ⟨.explicit 11, .explicit 1, .null, Concrete.script 8, none⟩]⟩

/-- The token comes to the wallet with a payment: the wallet does not have the issuing
transaction. -/
def funding : Transaction :=
  ⟨[⟨⟨6, 1⟩, .null⟩],
    [⟨.explicit 1, .explicit 100000, .null, Concrete.script 0, none⟩,
      ⟨.explicit 11, .explicit 1, .null, Concrete.script 0, none⟩]⟩

def env : Env := Concrete.env (fun _ => 7) [Concrete.script 0]

def wallet : Wollet := Concrete.funded env [funding]

def tx : TxBuilder :=
  { TxBuilder.new 1 with issuanceRequest := .reissuance 10 500 none (some issuing) }

theorem finishes : Concrete.finishes (Concrete.builder env) wallet tx = true := by decide

theorem fits : tx.FitsU64 (Concrete.builder env) wallet :=
  TxBuilder.fitsU64_of_worthFits rfl rfl rfl (by decide)

/-- The outputs pay 500 more units of asset 10 than the inputs carry and issue: with the nonce of
an explicit token the input issues another asset. -/
theorem reissuance_unbalanced : ∃ p, tx.finishInner (Concrete.builder env) wallet = .ok p ∧
    tx.FitsU64 (Concrete.builder env) wallet ∧ ¬ tx.Accounted (Concrete.builder env) p := by
  refine ⟨_, Concrete.finishInner_finished finishes, fits, fun h => ?_⟩
  have hbalance := h.conserves 10
  revert hbalance
  decide

theorem accounted_iff_reissuance :
    tx.Accounted (Concrete.builder env) (Concrete.finished (Concrete.builder env) wallet tx) ↔
      tx.MintsRequested (Concrete.builder env) wallet ∧
        tx.RoomForFee (Concrete.builder env) wallet :=
  TxBuilder.accounted_iff _ _ _ _ rfl rfl rfl (Concrete.finishInner_finished finishes) fits

end ExplicitToken

end Swk
