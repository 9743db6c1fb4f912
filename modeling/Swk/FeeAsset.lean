import Swk.Conservation

/-!
# Fees in another asset

A transaction can pay its fee in another asset than the policy asset. The fee is known only once the
transaction is weighed, and then in the policy asset; the exchange rate takes it to the fee asset,
rounded up, with one atom on top. It comes out of what is left of the fee asset, and if too little
for an output is left after that, it goes to the fee as well.

The node values the fee at the same rate, rounded down. `feeAsset_sound_iff` says when that is at
least what was weighed, when the fee asset balances, and when the wallet says that it has too little
of it. All amounts are `u64`. One addition has no check for overflow where its neighbours have:
what goes out of the fee asset plus the fee. A debug build panics there; a release build goes on
with a sum that is too small by `2^64`, finds that there is enough, and pays out more than comes in.
-/

namespace Swk

open UInt64

open TxBuilder (convertValue rateScale)

/-! ## Exchange rates -/

theorem le_convertValue_mul (value : Nat) {rate : Nat} (hrate : 0 < rate) :
    value * rateScale ≤ convertValue value rate * rate := by
  have hdiv := Nat.lt_div_mul_add (a := value * rateScale + rate - 1) hrate
  rw [convertValue]
  omega

theorem le_value_of_convertValue_le {value amount rate : Nat} (hrate : 0 < rate)
    (h : convertValue value rate ≤ amount) : value ≤ amount * rate / rateScale := by
  rw [Nat.le_div_iff_mul_le (by decide)]
  exact (le_convertValue_mul value hrate).trans (Nat.mul_le_mul_right rate h)

/-! ## The arithmetic of the fee -/

inductive FeeStop
  /-- An operation on `u64` overflows: a debug build panics. -/
  | overflow
  | insufficientFunds
  | rateTooSmall
deriving DecidableEq

/-- Addition on `u64`. -/
def debugAdd (a b : UInt64) : Except FeeStop UInt64 :=
  if a.toNat + b.toNat < 2 ^ 64 then .ok (a + b) else .error .overflow

/-- Subtraction on `u64`. -/
def debugSub (a b : UInt64) : Except FeeStop UInt64 :=
  if b ≤ a then .ok (a - b) else .error .overflow

/-- The policy fee in the fee asset: `fee_amount_x`. -/
def debugFeeAmount (rate policyFee : UInt64) : Except FeeStop UInt64 :=
  if 2 ^ 64 - 1 ≤ convertValue policyFee.toNat rate.toNat then .error .rateTooSmall
  else debugAdd (UInt64.ofNat (convertValue policyFee.toNat rate.toNat)) 1

/-- The fee output and the change, once it is known that there is enough. -/
def debugSplit (left feeAmount : UInt64) (dust : Nat) :
    Except FeeStop (UInt64 × Option UInt64) := do
  let change ← debugSub left feeAmount
  if left = 0 then pure (feeAmount, none)
  else if change.toNat > dust then pure (feeAmount, some change)
  else do
    let folded ← debugAdd feeAmount change
    pure (folded, none)

/-- The fee asset, of which `fee.1` comes in and `fee.2` goes out. -/
def debugFee (fee : UInt64 × UInt64) (rate policyFee : UInt64) :
    Except FeeStop (UInt64 × Option UInt64) :=
  if fee.1 < fee.2 then do
    let _ ← debugSub fee.2 fee.1
    throw .insufficientFunds
  else do
    let left ← debugSub fee.1 fee.2
    let feeAmount ← debugFeeAmount rate policyFee
    let needed ← debugAdd fee.2 feeAmount
    if fee.1 < needed then do
      let _ ← debugSub needed fee.1
      throw .insufficientFunds
    else debugSplit left feeAmount (convertValue 294 rate.toNat)

/-- What `finish_inner` computes once the fee is weighed, as a debug build does it: the fee output
and the change of the fee asset. Of the policy asset `sums.1` comes in and `sums.2` goes out. -/
def feeArithmetic (sums fee : UInt64 × UInt64) (rate policyFee : UInt64) :
    Except FeeStop (UInt64 × Option UInt64) :=
  if sums.1 < sums.2 then do
    -- the error says how much is missing, and one more
    let _ ← debugAdd sums.2 1
    throw .insufficientFunds
  else do
    let _ ← debugSub sums.1 sums.2
    debugFee fee rate policyFee

section Arithmetic

variable {a b : UInt64} {sums fee : UInt64 × UInt64} {rate policyFee : UInt64}

theorem debugAdd_ok (h : a.toNat + b.toNat < 2 ^ 64) : debugAdd a b = .ok (a + b) :=
  if_pos h

theorem debugAdd_overflow (h : ¬ a.toNat + b.toNat < 2 ^ 64) : debugAdd a b = .error .overflow :=
  if_neg h

theorem debugSub_ok (h : b ≤ a) : debugSub a b = .ok (a - b) := if_pos h

theorem toNat_add_of_lt (h : a.toNat + b.toNat < 2 ^ 64) : (a + b).toNat = a.toNat + b.toNat := by
  rw [UInt64.toNat_add, Nat.mod_eq_of_lt h]

theorem feeArithmetic_policy_short (h : sums.1 < sums.2) : feeArithmetic sums fee rate policyFee =
      if sums.2.toNat + 1 < 2 ^ 64 then .error .insufficientFunds else .error .overflow := by
  rw [feeArithmetic, if_pos h]
  by_cases hlt : sums.2.toNat + 1 < 2 ^ 64
  · rw [debugAdd_ok hlt, if_pos hlt, except_ok_bind, except_throw]
  · rw [debugAdd_overflow hlt, if_neg hlt, except_error_bind]

theorem feeArithmetic_covered (h : sums.2 ≤ sums.1) :
    feeArithmetic sums fee rate policyFee = debugFee fee rate policyFee := by
  rw [feeArithmetic, if_neg (UInt64.not_lt.2 h), debugSub_ok h, except_ok_bind]

theorem debugFee_short (h : fee.1 < fee.2) :
    debugFee fee rate policyFee = .error .insufficientFunds := by
  rw [debugFee, if_pos h, debugSub_ok (UInt64.le_of_lt h), except_ok_bind, except_throw]

theorem debugFeeAmount_ok (h : convertValue policyFee.toNat rate.toNat < 2 ^ 64 - 1) :
    debugFeeAmount rate policyFee = .ok (feeAmountX policyFee rate) := by
  have hvalue : (UInt64.ofNat (convertValue policyFee.toNat rate.toNat)).toNat =
      convertValue policyFee.toNat rate.toNat :=
    toNat_ofNat_of_lt' (h.trans (by decide))
  rw [debugFeeAmount, if_neg (by omega), debugAdd_ok]
  · rfl
  · rw [hvalue, toNat_one]
    omega

theorem debugFee_covered (hasset : fee.2 ≤ fee.1)
    (hfits : fee.2.toNat + (convertValue policyFee.toNat rate.toNat + 1) < 2 ^ 64) :
    debugFee fee rate policyFee =
      if fee.1 < fee.2 + feeAmountX policyFee rate then .error .insufficientFunds
      else
        debugSplit (fee.1 - fee.2) (feeAmountX policyFee rate) (convertValue 294 rate.toNat) := by
  have hrate : convertValue policyFee.toNat rate.toNat < 2 ^ 64 - 1 := by omega
  rw [← toNat_feeAmountX hrate] at hfits
  rw [debugFee, if_neg (UInt64.not_lt.2 hasset), debugSub_ok hasset, except_ok_bind,
    debugFeeAmount_ok hrate, except_ok_bind, debugAdd_ok hfits, except_ok_bind]
  split
  · next hlt => rw [debugSub_ok (UInt64.le_of_lt hlt), except_ok_bind, except_throw]
  · rfl

variable {left feeAmount amount : UInt64} {dust : Nat} {w : Wollet} {asset : AssetId}
  {c : Option Recipient}

theorem debugSplit_ok {change : Option UInt64} (hpos : 0 < feeAmount.toNat)
    (h : debugSplit left feeAmount dust = .ok (amount, change)) :
    feeAmount.toNat ≤ amount.toNat ∧ (∀ c ∈ change, dust < c.toNat) ∧
      left.toNat = ((change.map (·.toNat)).getD 0) + amount.toNat := by
  obtain ⟨c, hsub, h⟩ := except_bind_ok_iff.1 h
  have hle : feeAmount ≤ left := by
    unfold debugSub at hsub
    split at hsub
    · assumption
    · cases hsub
  rw [debugSub_ok hle] at hsub
  cases hsub
  have hsum := UInt64.toNat_sub_of_le left feeAmount hle
  have hle := UInt64.le_iff_toNat_le.1 hle
  split at h
  · rename_i hzero
    rw [hzero, UInt64.toNat_zero] at hle
    omega
  split at h
  · rename_i hkept
    cases h
    refine ⟨Nat.le_refl _, ?_, ?_⟩
    · intro c hc
      cases hc
      exact hkept
    · rw [Option.map_some, Option.getD_some, hsum]
      omega
  · obtain ⟨folded, hadd, h⟩ := except_bind_ok_iff.1 h
    cases h
    have hlt : feeAmount.toNat + (left - feeAmount).toNat < 2 ^ 64 := by
      have := left.toNat_lt
      omega
    rw [debugAdd_ok hlt] at hadd
    cases hadd
    have hsum' := toNat_add_of_lt hlt
    refine ⟨?_, ?_, ?_⟩
    · omega
    · intro c hc
      cases hc
    · rw [Option.map_none, Option.getD_none, hsum']
      omega

theorem debugSplit_ne_overflow (hle : feeAmount ≤ left) :
    debugSplit left feeAmount dust ≠ .error .overflow := by
  have hsum := UInt64.toNat_sub_of_le left feeAmount hle
  have hle' := UInt64.le_iff_toNat_le.1 hle
  have hlt : feeAmount.toNat + (left - feeAmount).toNat < 2 ^ 64 := by
    have := left.toNat_lt
    omega
  rw [debugSplit, debugSub_ok hle, except_ok_bind, debugAdd_ok hlt, except_ok_bind]
  split_ifs <;> simp [pure, Except.pure]

theorem IsChangeOf.le {x : Builder} (h : IsChangeOf x w fee asset c) : fee.2 ≤ fee.1 := by
  cases c with
  | none =>
    have heq : fee.1 = fee.2 := h
    rw [heq]
    exact UInt64.le_refl _
  | some r => exact UInt64.le_of_lt h.1

theorem ChangeSettled.debugSplit {x : Builder} {c' : Option Recipient}
    (hchange : IsChangeOf x w fee asset c) (hasset : fee.2 < fee.1)
    (hle : feeAmount ≤ fee.1 - fee.2)
    (h : ChangeSettled (fee.1 - fee.2 - feeAmount) feeAmount dust c c' amount) :
    Swk.debugSplit (fee.1 - fee.2) feeAmount dust = .ok (amount, c'.map (·.satoshi)) := by
  have hleft : fee.1 - fee.2 ≠ 0 := by
    intro hzero
    have := (sub_pos_iff (UInt64.le_of_lt hasset)).2 hasset
    rw [hzero] at this
    exact absurd this (UInt64.lt_irrefl 0)
  rw [Swk.debugSplit, debugSub_ok hle, except_ok_bind, if_neg hleft]
  cases h with
  | missing =>
    have heq : fee.1 = fee.2 := hchange
    rw [heq] at hasset
    exact absurd hasset (UInt64.lt_irrefl _)
  | kept r hkept =>
    rw [if_pos hkept]
    rfl
  | folded r hdust =>
    have hsum := UInt64.toNat_sub_of_le _ _ hle
    have hle := UInt64.le_iff_toNat_le.1 hle
    have hlt : feeAmount.toNat + (fee.1 - fee.2 - feeAmount).toNat < 2 ^ 64 := by
      have := (fee.1 - fee.2).toNat_lt
      omega
    rw [if_neg hdust, debugAdd_ok hlt, except_ok_bind]
    rfl

end Arithmetic

/-! ## When the builder says that funds are short -/

def FailsShort {α : Type} (m : BuildM α) (b : Build) : Prop :=
  ∃ missing asset isToken b', m b = .error (.insufficientFunds missing asset isToken) b'

section Short

variable {x : Builder} {w : Wollet} {t : TxBuilder} {b : Build} {asset : AssetId}
  {rate policyFee : UInt64} {sums fee : UInt64 × UInt64}

variable {α β : Type} {policyIdx changeIdx : Option Nat} {feeIdx : Nat}

theorem FailsShort.bind {m : BuildM α} (h : FailsShort m b) (f : α → BuildM β) :
    FailsShort (m >>= f) b := by
  obtain ⟨missing, asset, isToken, b', h⟩ := h
  exact ⟨missing, asset, isToken, b', bind_error_iff.2 (.inl h)⟩

theorem failsShort_bind_iff {m : BuildM α} {f : α → BuildM β} {a : α} {b₁ : Build}
    (h : m b = .ok a b₁) : FailsShort (m >>= f) b ↔ FailsShort (f a) b₁ := by
  have hrun : (m >>= f) b = f a b₁ := by
    show EStateM.bind m f b = _
    rw [EStateM.bind, h]
  unfold FailsShort
  rw [hrun]

theorem addPolicyChange_short (hfee : t.feeInAsset = some (asset, rate)) (h : sums.1 < sums.2) :
    FailsShort (t.addPolicyChange x w sums) b := by
  unfold TxBuilder.addPolicyChange
  refine FailsShort.bind ⟨_, _, _, _, ensureElse_error_iff.2 ⟨?_, rfl, rfl⟩⟩ _
  simp [hfee, h]

theorem addFeeAssetChange_short (hfee : t.feeInAsset = some (asset, rate)) (h : fee.1 < fee.2) :
    FailsShort (t.addFeeAssetChange x w fee) b := by
  unfold TxBuilder.addFeeAssetChange
  rw [hfee]
  refine FailsShort.bind ⟨_, _, _, _, ensureElse_error_iff.2 ⟨?_, rfl, rfl⟩⟩ _
  exact decide_eq_false (UInt64.not_le.2 h)

theorem not_failsShort_settle {dust : Nat} {amount change feeAmount : UInt64} {msg : String} :
    ¬ FailsShort (do
      TxBuilder.setAmountAt policyIdx amount
      TxBuilder.settleChange change feeAmount dust changeIdx feeIdx
      let b ← get
      ensureElse (b.pset.outputs.any fun o => !o.scriptPubkey.isEmpty) (.generic msg)) b := by
  have hpolicy : ∃ b₁, TxBuilder.setAmountAt policyIdx amount b = .ok () b₁ := by
    cases policyIdx with
    | none => exact ⟨b, rfl⟩
    | some i => exact ⟨_, rfl⟩
  obtain ⟨b₁, hpolicy⟩ := hpolicy
  have hchange : ∃ b₂, TxBuilder.settleChange change feeAmount dust changeIdx feeIdx b₁ =
      .ok () b₂ := by
    unfold TxBuilder.settleChange
    cases changeIdx with
    | none => exact ⟨_, rfl⟩
    | some i =>
      by_cases hkept : change.toNat > dust
      · simp only [hkept, if_true]
        exact ⟨_, rfl⟩
      · simp only [hkept, if_false]
        exact ⟨_, rfl⟩
  obtain ⟨b₂, hchange⟩ := hchange
  rw [failsShort_bind_iff hpolicy, failsShort_bind_iff hchange,
    failsShort_bind_iff (get_ok_iff.2 ⟨rfl, rfl⟩)]
  intro h
  obtain ⟨missing, asset, isToken, b', h⟩ := h
  obtain ⟨-, h, -⟩ := ensureElse_error_iff.1 h
  cases h

theorem settleFeeAsset_short_iff :
    FailsShort (TxBuilder.settleFeeAsset sums fee asset rate policyFee policyIdx changeIdx feeIdx)
        b ↔
      convertValue policyFee.toNat rate.toNat < 2 ^ 64 - 1 ∧
        fee.1 < fee.2 + feeAmountX policyFee rate := by
  unfold TxBuilder.settleFeeAsset
  by_cases hrate : convertValue policyFee.toNat rate.toNat < 2 ^ 64 - 1
  · rw [and_iff_right hrate, failsShort_bind_iff (a := ())
      (ensureElse_ok_iff.2 ⟨decide_eq_true hrate, rfl⟩)]
    by_cases hshort : fee.1 < fee.2 + feeAmountX policyFee rate
    · refine iff_of_true (FailsShort.bind ⟨_, _, _, _, ensureElse_error_iff.2 ⟨?_, rfl, rfl⟩⟩ _)
        hshort
      simpa [feeAmountX] using hshort
    · have henough : (!decide (fee.1 < fee.2 + feeAmountX policyFee rate)) = true := by
        simpa using hshort
      refine iff_of_false (fun h => ?_) hshort
      have hrest := (failsShort_bind_iff (a := ()) (ensureElse_ok_iff.2 ⟨henough, rfl⟩)).1 h
      exact not_failsShort_settle hrest
  · refine iff_of_false ?_ fun h => hrate h.1
    intro h
    obtain ⟨missing, asset, isToken, b', h⟩ := h
    rcases bind_error_iff.1 h with h | ⟨_, _, hok, -⟩
    · obtain ⟨-, h, -⟩ := ensureElse_error_iff.1 h
      cases h
    · exact hrate (of_decide_eq_true (ensureElse_ok_iff.1 hok).1)

end Short

/-! ## The fee step -/

namespace TxBuilder

/-- The fee is weighed at `policyFee`, unless funds are short before that: no address and no
blinding fails. -/
structure Weighed (x : Builder) (w : Wollet) (t : TxBuilder) (sums fee : UInt64 × UInt64)
    (b : Build) (policyFee : UInt64) : Prop where
  policyChange : sums.2 ≤ sums.1 → ∃ idx b₁, t.addPolicyChange x w sums b = .ok idx b₁
  fee : sums.2 ≤ sums.1 → fee.2 ≤ fee.1 →
    ∃ r b₁, t.prepareFee x w sums fee b = .ok r b₁ ∧ r.2.2 = policyFee

/-- Four totals, as integers: what comes in and goes out of the policy asset and of the fee
asset. -/
structure FeeTotals where
  policyIn : Nat
  policyOut : Nat
  assetIn : Nat
  assetOut : Nat

namespace FeeTotals

/-- The policy asset, as the builder adds it up. -/
def sums (n : FeeTotals) : UInt64 × UInt64 := (UInt64.ofNat n.policyIn, UInt64.ofNat n.policyOut)

def fee (n : FeeTotals) : UInt64 × UInt64 := (UInt64.ofNat n.assetIn, UInt64.ofNat n.assetOut)

/-- The totals fit, so that adding them up does not overflow. -/
structure Fit (n : FeeTotals) : Prop where
  policyIn : n.policyIn < 2 ^ 64
  policyOut : n.policyOut < 2 ^ 64
  assetIn : n.assetIn < 2 ^ 64
  assetOut : n.assetOut < 2 ^ 64

end FeeTotals

/-- What a run of the builder adds up for the two assets. -/
def feeTotals (x : Builder) (t : TxBuilder) (utxos : HashMap OutPoint WalletTxOut)
    (selected : List WalletTxOut) (asset : AssetId) : FeeTotals where
  policyIn := total Coin.value (t.policySpent x utxos selected)
  policyOut := t.requested t.policyAsset
  assetIn := total Coin.value (t.coinsFor x utxos selected asset)
  assetOut := t.requested asset

/-- **What paying the fee in another asset should do**, from the state `b` in which the builder
comes to the fee. -/
structure FeeSound (x : Builder) (w : Wollet) (t : TxBuilder) (n : FeeTotals) (asset : AssetId)
    (rate policyFee : UInt64) (b : Build) : Prop where
  /-- No addition or subtraction overflows. -/
  sums : n.Fit
  arithmetic : feeArithmetic n.sums n.fee rate policyFee ≠ .error .overflow
  /-- The fee is worth what was weighed, its change is no dust, and the fee asset balances. -/
  paid : ∀ p, t.finishInner x w = .ok p → ∃ (policy change : Option Recipient) (amount : UInt64),
      p.outputs = b.pset.outputs ++
        ((policy.toList ++ change.toList).map (·.output) ++ [feeOutput amount asset]) ∧
      (∀ r ∈ policy, r.asset = x.env.policyAsset) ∧ (∀ r ∈ change, r.asset = asset) ∧
      policyFee.toNat ≤ amount.toNat * rate.toNat / rateScale ∧
      (∀ r ∈ change, convertValue 294 rate.toNat < r.satoshi.toNat) ∧
      n.assetIn = n.assetOut + ((change.map (·.satoshi.toNat)).getD 0) + amount.toNat
  /-- Funds are short exactly if they are. -/
  short : (∃ missing asset' isToken,
      t.finishInner x w = .error (.insufficientFunds missing asset' isToken)) ↔
    n.assetIn < n.assetOut + (convertValue policyFee.toNat rate.toNat + 1) ∨
      n.policyIn < n.policyOut

/-- The condition: the totals fit, and so does the one sum that is computed of them. -/
structure FeeFits (n : FeeTotals) (rate policyFee : UInt64) : Prop where
  sums : n.Fit
  message : n.policyIn < n.policyOut → n.policyOut + 1 < 2 ^ 64
  needed : n.policyOut ≤ n.policyIn → n.assetOut ≤ n.assetIn →
    n.assetOut + (convertValue policyFee.toNat rate.toNat + 1) < 2 ^ 64

end TxBuilder

section FeeStep

open TxBuilder

variable {x : Builder} {w : Wollet} {t : TxBuilder} {b b' : Build} {asset : AssetId}
  {rate policyFee : UInt64} {sums fee : UInt64 × UInt64} {n : FeeTotals}

namespace TxBuilder.FeeTotals.Fit

theorem toNat_sums (h : n.Fit) : n.sums.1.toNat = n.policyIn ∧ n.sums.2.toNat = n.policyOut :=
  ⟨toNat_ofNat_of_lt' h.policyIn, toNat_ofNat_of_lt' h.policyOut⟩

theorem toNat_fee (h : n.Fit) : n.fee.1.toNat = n.assetIn ∧ n.fee.2.toNat = n.assetOut :=
  ⟨toNat_ofNat_of_lt' h.assetIn, toNat_ofNat_of_lt' h.assetOut⟩

theorem sums_lt_iff (h : n.Fit) : n.sums.1 < n.sums.2 ↔ n.policyIn < n.policyOut := by
  rw [lt_iff_toNat_lt, h.toNat_sums.1, h.toNat_sums.2]

theorem fee_lt_iff (h : n.Fit) : n.fee.1 < n.fee.2 ↔ n.assetIn < n.assetOut := by
  rw [lt_iff_toNat_lt, h.toNat_fee.1, h.toNat_fee.2]

end TxBuilder.FeeTotals.Fit

theorem addFee_short_iff (hfee : t.feeInAsset = some (asset, rate))
    (hweighed : t.Weighed x w sums fee b policyFee) : FailsShort (t.addFee x w sums fee) b ↔
      sums.1 < sums.2 ∨ fee.1 < fee.2 ∨ convertValue policyFee.toNat rate.toNat < 2 ^ 64 - 1 ∧
          fee.1 < fee.2 + feeAmountX policyFee rate := by
  by_cases hpolicy : sums.1 < sums.2
  · exact iff_of_true ((addPolicyChange_short hfee hpolicy).bind _) (.inl hpolicy)
  rw [or_iff_right hpolicy]
  have hcovered := UInt64.not_lt.1 hpolicy
  by_cases hasset : fee.1 < fee.2
  · obtain ⟨idx, b₁, hchange⟩ := hweighed.policyChange hcovered
    refine iff_of_true ?_ (.inl hasset)
    exact (failsShort_bind_iff hchange).2 ((addFeeAssetChange_short hfee hasset).bind _)
  · rw [or_iff_right hasset]
    obtain ⟨r, b₁, hprepare, hr⟩ := hweighed.fee hcovered (UInt64.not_lt.1 hasset)
    rw [addFee_asset_eq hfee, failsShort_bind_iff hprepare, settleFeeAsset_short_iff, hr]

theorem addFee_asset_ok {u : Unit} (hfee : t.feeInAsset = some (asset, rate))
    (hweighed : t.Weighed x w sums fee b policyFee) (h : t.addFee x w sums fee b = .ok u b') :
    ∃ (policy c change : Option Recipient) (amount : UInt64), sums.2 ≤ sums.1 ∧
      IsChangeOf x w fee asset c ∧
      (∀ r ∈ policy, r.asset = x.env.policyAsset) ∧
      fee.2 + feeAmountX policyFee rate ≤ fee.1 ∧
      ChangeSettled (fee.1 - fee.2 - feeAmountX policyFee rate) (feeAmountX policyFee rate)
        (convertValue 294 rate.toNat) c change amount ∧
      b'.pset.outputs = b.pset.outputs ++
        ((policy.toList ++ change.toList).map (·.output) ++ [feeOutput amount asset]) := by
  rw [addFee_asset_eq hfee] at h
  obtain ⟨r, b₁, hprepare, h⟩ := bind_ok_iff.1 h
  obtain ⟨idx, weight, hdraft, -, rfl⟩ := prepareFee_ok hprepare
  obtain ⟨p, c, hd⟩ := draftFee_ok hdraft
  have hc : IsChangeOf x w fee asset c := by
    have hchange := hd.change
    rwa [FeeChange, hfee] at hchange
  have houtputs := hd.outputs
  rw [feePaidIn_eq hfee] at houtputs
  have hcovered : sums.2 ≤ sums.1 := hd.policy.covered (by simp [hfee])
  obtain ⟨r', b₁', hprepare', hr⟩ := hweighed.fee hcovered hc.le
  rw [hprepare] at hprepare'
  cases hprepare'
  obtain rfl : x.calculateFee weight t.feeRate = policyFee := hr
  simp only [hd.policyIdx, hd.changeIdx, hd.feeIdx] at h
  obtain ⟨change, amount, -, hroom, hsettled, rfl⟩ := settleFeeAsset_ok houtputs h
  refine ⟨p.map (·.withAmount (sums.1 - sums.2)), c, change, amount, hcovered, hc, ?_, hroom,
    hsettled, ?_⟩
  · intro r hr
    obtain ⟨r', hr', rfl⟩ := Option.mem_map.1 hr
    obtain ⟨satoshi, hown⟩ := hd.policy.owned r' hr'
    exact (hown.withAmount _).amount.2
  · rw [List.map_append, List.append_assoc]
    rfl

namespace TxBuilder.FeeFits

variable (h : FeeFits n rate policyFee)

include h

theorem arithmetic :
    feeArithmetic n.sums n.fee rate policyFee ≠ .error .overflow := by
  obtain ⟨hin, hout⟩ := h.sums.toNat_fee
  by_cases hpolicy : n.policyIn < n.policyOut
  · rw [feeArithmetic_policy_short (h.sums.sums_lt_iff.2 hpolicy), h.sums.toNat_sums.2,
      if_pos (h.message hpolicy)]
    simp
  rw [feeArithmetic_covered (UInt64.not_lt.1 (mt h.sums.sums_lt_iff.1 hpolicy))]
  by_cases hasset : n.assetIn < n.assetOut
  · rw [debugFee_short (h.sums.fee_lt_iff.2 hasset)]
    simp
  have hfits := h.needed (Nat.not_lt.1 hpolicy) (Nat.not_lt.1 hasset)
  have hle := UInt64.not_lt.1 (mt h.sums.fee_lt_iff.1 hasset)
  rw [← hout] at hfits
  rw [debugFee_covered hle hfits]
  split
  · simp
  · next henough =>
      have hrate : convertValue policyFee.toNat rate.toNat < 2 ^ 64 - 1 := by omega
      have hx := toNat_feeAmountX hrate
      rw [lt_iff_toNat_lt, toNat_add_of_lt (hx ▸ hfits), hx] at henough
      apply debugSplit_ne_overflow
      rw [UInt64.le_iff_toNat_le, UInt64.toNat_sub_of_le _ _ hle, hx]
      omega

variable (hfee : t.feeInAsset = some (asset, rate))
variable (hweighed : t.Weighed x w n.sums n.fee b policyFee)

include hfee hweighed

theorem short : FailsShort (t.addFee x w n.sums n.fee) b ↔
      n.assetIn < n.assetOut + (convertValue policyFee.toNat rate.toNat + 1) ∨
        n.policyIn < n.policyOut := by
  obtain ⟨hin, hout⟩ := h.sums.toNat_fee
  rw [addFee_short_iff hfee hweighed, h.sums.sums_lt_iff, h.sums.fee_lt_iff]
  by_cases hpolicy : n.policyIn < n.policyOut
  · simp [hpolicy]
  by_cases hasset : n.assetIn < n.assetOut
  · simp only [hpolicy, hasset, true_or, or_false, or_true, true_iff]
    omega
  have hfits := h.needed (Nat.not_lt.1 hpolicy) (Nat.not_lt.1 hasset)
  have hrate : convertValue policyFee.toNat rate.toNat < 2 ^ 64 - 1 := by omega
  have hadd : (n.fee.2 + feeAmountX policyFee rate).toNat =
      n.assetOut + (convertValue policyFee.toNat rate.toNat + 1) := by
    rw [toNat_add_of_lt, toNat_feeAmountX hrate, hout]
    rwa [toNat_feeAmountX hrate, hout]
  simp only [hpolicy, hasset, false_or, or_false, and_iff_right hrate]
  rw [lt_iff_toNat_lt, hin, hadd]

theorem paid (hrate : rate ≠ 0) {u : Unit} (hok : t.addFee x w n.sums n.fee b = .ok u b') :
    ∃ (policy change : Option Recipient) (amount : UInt64), b'.pset.outputs = b.pset.outputs ++
        ((policy.toList ++ change.toList).map (·.output) ++ [feeOutput amount asset]) ∧
      (∀ r ∈ policy, r.asset = x.env.policyAsset) ∧ (∀ r ∈ change, r.asset = asset) ∧
      policyFee.toNat ≤ amount.toNat * rate.toNat / rateScale ∧
      (∀ r ∈ change, convertValue 294 rate.toNat < r.satoshi.toNat) ∧
      n.assetIn = n.assetOut + ((change.map (·.satoshi.toNat)).getD 0) + amount.toNat := by
  obtain ⟨policy, c, change, amount, hcovered, hc, hpolicy, hroom, hsettled, houtputs⟩ :=
    addFee_asset_ok hfee hweighed hok
  obtain ⟨hin, hout⟩ := h.sums.toNat_fee
  have hle : n.fee.2 ≤ n.fee.1 := hc.le
  have hfits := h.needed (Nat.not_lt.1 (mt h.sums.sums_lt_iff.2 (UInt64.not_lt.2 hcovered)))
    (Nat.not_lt.1 (mt h.sums.fee_lt_iff.2 (UInt64.not_lt.2 hle)))
  have hsmall : convertValue policyFee.toNat rate.toNat < 2 ^ 64 - 1 := by omega
  have hx := toNat_feeAmountX hsmall
  -- nothing wraps, so there is as much left as the fee takes
  have hroom : n.assetOut + (convertValue policyFee.toNat rate.toNat + 1) ≤ n.assetIn := by
    rw [le_iff_toNat_le, toNat_add_of_lt, hx, hin, hout] at hroom
    · exact hroom
    · rwa [hx, hout]
  have hleft : (n.fee.1 - n.fee.2).toNat = n.assetIn - n.assetOut := by
    rw [UInt64.toNat_sub_of_le _ _ hle, hin, hout]
  have hlt : n.fee.2 < n.fee.1 := by
    rw [UInt64.lt_iff_toNat_lt, hin, hout]
    omega
  have hle' : feeAmountX policyFee rate ≤ n.fee.1 - n.fee.2 := by
    rw [le_iff_toNat_le, hleft, hx]
    omega
  have hsplit := ChangeSettled.debugSplit hc hlt hle' hsettled
  obtain ⟨hamount, hdust, hsum⟩ := debugSplit_ok (by omega) hsplit
  refine ⟨policy, change, amount, houtputs, hpolicy, ?_, ?_, ?_, ?_⟩
  · intro r hr
    exact hsettled.asset hc.asset r (Option.mem_toList.2 hr)
  · have hpos : 0 < rate.toNat := Nat.pos_of_ne_zero fun hzero => hrate (UInt64.toNat_inj.1 hzero)
    exact le_value_of_convertValue_le hpos (by omega)
  · intro r hr
    exact hdust _ (Option.mem_map_of_mem _ hr)
  · rw [Option.map_map] at hsum
    have hsum' : n.assetIn - n.assetOut =
        (change.map (·.satoshi.toNat)).getD 0 + amount.toNat := hleft ▸ hsum
    omega

end TxBuilder.FeeFits

theorem finishInner_plain (hmake : t.isLiquidexMake = false) (htake : t.liquidexProposals = []) :
    (∀ p, t.finishInner x w = .ok p ↔ ∃ b', t.finishPlain x w (start w) = .ok p b') ∧
      ∀ e, t.finishInner x w = .error e ↔ ∃ b', t.finishPlain x w (start w) = .error e b' := by
  unfold finishInner
  rw [hmake, htake]
  simp only [List.isEmpty_nil, Bool.not_true, Bool.false_eq_true, if_false]
  cases t.finishPlain x w (start w) with
  | ok p b' => simp
  | error e b' => simp

theorem finishInner_short_iff (hmake : t.isLiquidexMake = false) (htake : t.liquidexProposals = [])
    {r : (UInt64 × UInt64) × UInt64 × UInt64} (hbefore : t.beforeFee x w (start w) = .ok r b)
    (hother : ∀ b', ¬ FailsShort (t.complete x) b') : (∃ missing asset' isToken,
        t.finishInner x w = .error (.insufficientFunds missing asset' isToken)) ↔
      FailsShort (t.addFee x w r.1 r.2) b := by
  have hrun : (∃ missing asset' isToken,
        t.finishInner x w = .error (.insufficientFunds missing asset' isToken)) ↔
      FailsShort (t.finishPlain x w) (start w) := by
    unfold FailsShort
    simp only [(finishInner_plain hmake htake).2]
  rw [hrun, finishPlain_eq, failsShort_bind_iff hbefore]
  constructor
  · intro h
    obtain ⟨missing, asset', isToken, b', h⟩ := h
    rcases bind_error_iff.1 h with h | ⟨_, b₁, -, h⟩
    · exact ⟨missing, asset', isToken, b', h⟩
    · exact absurd ⟨missing, asset', isToken, b', h⟩ (hother b₁)
  · exact fun h => h.bind _

/-- **A fee in another asset is sufficient and never dust** exactly if what comes in and what goes
out of the two assets fits in a `u64`, and so does what goes out together with the fee. -/
theorem feeAsset_sound_iff {all : HashMap OutPoint WalletTxOut} {selected : List WalletTxOut}
    {r : (UInt64 × UInt64) × UInt64 × UInt64} (hmake : t.isLiquidexMake = false)
    (htake : t.liquidexProposals = []) (hfee : t.feeInAsset = some (asset, rate))
    (hall : w.utxosMap = .ok all) (hselected : t.selectedCoins (t.candidates all) = .ok selected)
    (hbefore : t.beforeFee x w (start w) = .ok r b) (hweighed : t.Weighed x w r.1 r.2 b policyFee)
    (hother : ∀ b', ¬ FailsShort (t.complete x) b') :
    t.FeeSound x w (t.feeTotals x (t.candidates all) selected asset) asset rate policyFee b ↔
      FeeFits (t.feeTotals x (t.candidates all) selected asset) rate policyFee := by
  have hshort := finishInner_short_iff hmake htake hbefore hother
  obtain ⟨all', selected', _, _, _, _, hall', hselected', hrate, -, -, -, rfl⟩ :=
    beforeFee_ok hbefore
  obtain rfl : all = all' := Except.ok.inj (hall.symm.trans hall')
  obtain rfl : selected = selected' := Except.ok.inj (hselected.symm.trans hselected')
  generalize hn : t.feeTotals x (t.candidates all) selected asset = n
  have hsums : t.policySums x (t.candidates all) selected = n.sums := by
    rw [← hn]
    rfl
  have hfeeSums : t.feeSums x (t.candidates all) selected = n.fee := by
    rw [← hn, feeSums, hfee]
    rfl
  have hpos : rate ≠ 0 := by
    intro hzero
    simp [checkRate, hfee, hzero] at hrate
  simp only [hsums, hfeeSums] at hshort hweighed hbefore
  constructor
  · intro h
    refine ⟨h.sums, ?_, ?_⟩
    · intro hpolicy
      by_contra hlt
      have harithmetic := h.arithmetic
      rw [feeArithmetic_policy_short (h.sums.sums_lt_iff.2 hpolicy), h.sums.toNat_sums.2,
        if_neg hlt] at harithmetic
      exact harithmetic rfl
    · intro hpolicy hasset
      by_contra hlt
      -- nothing is short for the builder, whatever the fee
      have hin := h.sums.assetIn
      obtain ⟨-, hout⟩ := h.sums.toNat_fee
      have hfails := hshort.1 (h.short.2 (.inl (by omega)))
      rcases (addFee_short_iff hfee hweighed).1 hfails with hshort | hshort | ⟨hsmall, hshort⟩
      · exact absurd (h.sums.sums_lt_iff.1 hshort) (Nat.not_lt.2 hpolicy)
      · exact absurd (h.sums.fee_lt_iff.1 hshort) (Nat.not_lt.2 hasset)
      · have hx := toNat_feeAmountX hsmall
        rw [UInt64.lt_iff_toNat_lt, UInt64.toNat_add, hx, h.sums.toNat_fee.1, hout] at hshort
        have hlt' := h.sums.assetOut
        omega
  · intro h
    refine ⟨h.sums, h.arithmetic, ?_, ?_⟩
    · intro p hok
      obtain ⟨b', hrun⟩ := ((finishInner_plain hmake htake).1 p).1 hok
      rw [finishPlain_eq] at hrun
      obtain ⟨r', b₁, hbefore', hrun⟩ := bind_ok_iff.1 hrun
      rw [hbefore] at hbefore'
      cases hbefore'
      obtain ⟨u, b₂, haddFee, hcomplete⟩ := bind_ok_iff.1 hrun
      rw [complete_ok hcomplete]
      exact h.paid hfee hweighed hpos haddFee
    · rw [hshort]
      exact h.short hfee hweighed

end FeeStep

/-! ## A fee on top of everything -/

namespace Concrete

theorem complete_not_short (env : Env) (t : TxBuilder) (b : Build) :
    ¬ FailsShort (t.complete (builder env)) b := by
  intro h
  obtain ⟨missing, asset, isToken, b', h⟩ := h
  unfold TxBuilder.complete at h
  rcases bind_error_iff.1 h with h | ⟨_, b₁, -, h⟩
  · cases h
  rcases bind_error_iff.1 h with h | ⟨_, b₁, -, h⟩
  · obtain ⟨-, h, -⟩ := ensureElse_error_iff.1 h
    cases h
  rcases bind_error_iff.1 h with h | ⟨_, b₂, -, h⟩
  · unfold runIf at h
    split at h
    · cases h
    · cases h
  rcases bind_error_iff.1 h with h | ⟨_, b₃, -, h⟩
  · cases h
  · cases h

end Concrete

namespace AllOfIt

def funding : Transaction :=
  ⟨[], [⟨.explicit 2, .explicit 18446744073709551615, .null, Concrete.script 0, none⟩]⟩

def env : Env := Concrete.env (fun _ => 12) [Concrete.script 0]

def x : Builder := Concrete.builder env

def wallet : Wollet := Concrete.funded env [funding]

def tx : TxBuilder :=
  { TxBuilder.new 1 with
    recipients := [⟨18446744073709551615, [8], none, 2⟩]
    feeAsset := some (2, 100000000) }

def all : HashMap OutPoint WalletTxOut := Concrete.value wallet.utxosMap ∅

def before : ((UInt64 × UInt64) × UInt64 × UInt64) × Build :=
  Concrete.arrival (tx.beforeFee x wallet) (TxBuilder.start wallet) ((0, 0), (0, 0))

theorem utxosMap_all : wallet.utxosMap = .ok all := Concrete.eq_ok_value (by decide)

theorem beforeFee_before : tx.beforeFee x wallet (TxBuilder.start wallet) = .ok before.1 before.2 :=
  Concrete.run_arrival _ (by decide)

theorem finishes : Concrete.finishes x wallet tx = true := by decide

/-- The coin is paid out in full, and a fee on top of it. -/
theorem fee_out_of_nothing : ∃ p, tx.finishInner x wallet = .ok p ∧
    p.inputs.map (fun i => (i.asset, i.amount)) = [(some 2, some 18446744073709551615)] ∧
    p.outputs.map (fun o => (o.asset, o.amount)) =
      [(some 2, some 18446744073709551615), (some 2, some 22)] :=
  ⟨_, Concrete.finishInner_finished finishes, by decide, by decide⟩

theorem weighed : tx.Weighed x wallet before.1.1 before.1.2 before.2 21 where
  policyChange _ := ⟨_, _, Concrete.run_arrival none (by decide)⟩
  fee _ _ := ⟨_, _, Concrete.run_arrival ((none, none), 0, 0) (by decide), by decide⟩

theorem feeAsset_sound_iff_allOfIt :
    tx.FeeSound x wallet (tx.feeTotals x (tx.candidates all) [] 2) 2 100000000 21 before.2 ↔
      TxBuilder.FeeFits (tx.feeTotals x (tx.candidates all) [] 2) 100000000 21 :=
  feeAsset_sound_iff rfl rfl rfl utxosMap_all rfl beforeFee_before weighed
    (Concrete.complete_not_short env tx)

end AllOfIt

end Swk
