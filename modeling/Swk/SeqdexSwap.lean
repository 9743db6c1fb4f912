import Mathlib.Algebra.Order.Floor.Div
import Swk.Conservation
import Swk.RawTransaction

/-!
# Swap requests

The taker of a SeqDEX trade sends the maker an unsigned PSET with the coins it pays from, the output
it wants to receive and its change, and reveals what is behind its coins so that the maker can
balance the blinding. Coins are selected largest first, once for the asset that is sent and once
more if the taker pays the network fee in a third asset; both selections append to the same inputs
and the same list of revealed secrets.

`Taken.Records` is what the two selections keep: the inputs are the coins selected so far, in order,
and each is revealed under its index. The request then balances asset by asset
(`SeqdexSwapRequest.Balances`): what change does not return, and the fee does not take, is exactly
the amount that is sent.
-/

namespace Swk

open List

/-- `SeqdexUnblindedInput`. The asset and the blinders are sent as the text of these values. -/
structure SeqdexUnblindedInput where
  index : UInt32
  asset : AssetId
  amount : UInt64
  assetBlinder : Tweak
  amountBlinder : Tweak
deriving DecidableEq

/-- `SeqdexSwapRequest`, without its random id. -/
structure SeqdexSwapRequest where
  amountP : UInt64
  assetP : AssetId
  amountR : UInt64
  assetR : AssetId
  transaction : Pset
  unblindedInputs : List SeqdexUnblindedInput
deriving DecidableEq

structure SeqdexSwapRequestOpts where
  assetP : AssetId
  amountP : UInt64
  assetR : AssetId
  amountR : UInt64
  receiveAddress : Address
  feeAsset : AssetId
  feeAmount : UInt64
  feeRate : UInt64

/-! ## Dust -/

/-- `convert_value_to_amount`: a rate of zero is that of the native asset. -/
def convertValueToAmount (value rate : UInt64) : UInt64 :=
  if rate = 0 then value else UInt64.ofNat (TxBuilder.convertValue value.toNat rate.toNat)

def dustThreshold (rate : UInt64) : UInt64 := convertValueToAmount 294 rate

/-! ## Selecting coins -/

structure Taken where
  nInputs : UInt32
  unblindedInputs : List SeqdexUnblindedInput

/-- Drop the asset and the amount of an input that has no proofs of them: those of an output that
is not committed to. -/
def PsetInput.dropUnproved (i : PsetInput) : PsetInput :=
  if i.witnessUtxo.any TxOut.isCommitted then i else { i with amount := none, asset := none }

/-- Drop the unproved fields of the input at an index. -/
def Build.dropUnproved (b : Build) (idx : Nat) : Build :=
  { b with pset := { b.pset with inputs := b.pset.inputs.modify idx PsetInput.dropUnproved } }

/-- What is revealed of the input at an index. -/
def SeqdexUnblindedInput.reveal (idx : Nat) (secrets : TxOutSecrets) : SeqdexUnblindedInput where
  index := UInt32.ofNat idx
  asset := secrets.asset
  amount := secrets.value
  assetBlinder := secrets.assetBf
  amountBlinder := secrets.valueBf

namespace Wollet

def swapCandidates (x : Builder) (utxos : HashMap OutPoint WalletTxOut) (asset : AssetId) :
    List WalletTxOut :=
  (coinsOf x utxos asset).insertionSort fun a b => b.unblinded.value ≤ a.unblinded.value

def takeInput (x : Builder) (w : Wollet) (utxo : WalletTxOut) (taken : Taken) : BuildM Taken := do
  let idx ← w.addInput x true utxo
  modify (·.dropUnproved idx)
  pure
    { nInputs := taken.nInputs + 1
      unblindedInputs := taken.unblindedInputs ++ [.reveal idx utxo.unblinded] }

/-- The loop of `select`: coins are spent until they cover the target. -/
def select (x : Builder) (w : Wollet) (target : UInt64) :
    List WalletTxOut → Taken → UInt64 → BuildM (Taken × UInt64)
  | [], taken, selected => pure (taken, selected)
  | utxo :: rest, taken, selected =>
    if selected ≥ target then pure (taken, selected)
    else do
      let taken ← w.takeInput x utxo taken
      let selected ← liftExcept
        (okOr (checkedAdd selected utxo.unblinded.value) (.generic "selected total overflow"))
      w.select x target rest taken selected

/-- `select`, with the check that the target is covered. -/
def fund (x : Builder) (w : Wollet) (utxos : HashMap OutPoint WalletTxOut) (asset : AssetId)
    (target : UInt64) (taken : Taken) : BuildM (Taken × UInt64) := do
  let r ← w.select x target (swapCandidates x utxos asset) taken 0
  ensureElse (decide (target ≤ r.2)) (.insufficientFunds (target - r.2) asset false)
  pure r

end Wollet

/-! ## The request -/

namespace SeqdexSwapRequestOpts

variable (o : SeqdexSwapRequestOpts) (blindingPubkey : PublicKey)

def takerFundsFee : Bool := decide (0 < o.feeAmount)

/-- The taker pays the network fee in the asset it sends. -/
def feeInAssetP : Bool :=
  o.takerFundsFee && decide (o.feeAsset = o.assetP)

/-- The fee is not paid in the asset that is received. -/
def checkFeeAsset : Except Error Unit :=
  require (!(o.takerFundsFee && decide (o.feeAsset = o.assetR)))
    (.generic ("swap fee cannot be paid in the received asset; use the maker-funded default " ++
      "(fee_amount = 0) or pick another asset"))

/-- What the taker must fund of the asset it sends. -/
def fundAmount : Except Error UInt64 :=
  if o.feeInAssetP then
    okOr (checkedAdd o.amountP o.feeAmount) (.generic "amount_p + fee_amount overflow")
  else .ok o.amountP

def outputTo (amount : UInt64) (asset : AssetId) (blinderIndex : Nat) : PsetOutput where
  scriptPubkey := o.receiveAddress.scriptPubkey
  amount := some amount
  asset := some asset
  blindingKey := some blindingPubkey
  blinderIndex := some blinderIndex
  abf := none

def addChange (amount : UInt64) (asset : AssetId) : BuildM Unit :=
  pushOutput (o.outputTo blindingPubkey amount asset 0)

/-- The change in the asset the fee is paid in, and the fee. Change that is dust goes into the fee:
the node would not relay it. -/
def payFee (change : UInt64) (asset : AssetId) : BuildM Unit :=
  if dustThreshold o.feeRate < change then do
    o.addChange blindingPubkey change asset
    pushOutput (.newExplicit [] o.feeAmount o.feeAsset)
  else pushOutput (.newExplicit [] (o.feeAmount + change) o.feeAsset)

def addRest (assetPChange feeSelected : UInt64) : BuildM Unit :=
  if o.feeInAssetP then o.payFee blindingPubkey assetPChange o.assetP
  else do
    runIf (decide (0 < assetPChange)) (o.addChange blindingPubkey assetPChange o.assetP)
    runIf o.takerFundsFee (o.payFee blindingPubkey (feeSelected - o.feeAmount) o.feeAsset)

end SeqdexSwapRequestOpts

namespace Wollet

variable (x : Builder) (w : Wollet)

/-- The second selection, for a fee in a third asset. -/
def fundFee (utxos : HashMap OutPoint WalletTxOut) (opts : SeqdexSwapRequestOpts)
    (taken : Taken) : BuildM (Taken × UInt64) :=
  if opts.takerFundsFee && !opts.feeInAssetP then
    w.fund x utxos opts.feeAsset opts.feeAmount taken
  else pure (taken, 0)

/-- The body of `seqdex_swap_request`, on a PSET with nothing in it. -/
def swapRequest (opts : SeqdexSwapRequestOpts) : BuildM SeqdexSwapRequest := do
  liftExcept opts.checkFeeAsset
  let fundAmount ← liftExcept opts.fundAmount
  let blindingPubkey ←
    liftExcept (okOr opts.receiveAddress.blindingPubkey Error.notConfidentialAddress)
  let utxos ← liftExcept w.utxosMap
  let p ← w.fund x utxos opts.assetP fundAmount ⟨0, []⟩
  -- before the output that receives, so that its blinder index counts all inputs of the taker
  let fee ← w.fundFee x utxos opts p.1
  pushOutput (opts.outputTo blindingPubkey opts.amountR opts.assetR fee.1.nInputs.toNat)
  opts.addRest blindingPubkey (p.2 - fundAmount) fee.2
  let b ← get
  pure
    { amountP := opts.amountP
      assetP := opts.assetP
      amountR := opts.amountR
      assetR := opts.assetR
      transaction := b.pset
      unblindedInputs := fee.1.unblindedInputs }

def seqdexSwapRequest (opts : SeqdexSwapRequestOpts) : Except Error SeqdexSwapRequest :=
  match w.swapRequest x opts (TxBuilder.start w) with
  | .ok r _ => .ok r
  | .error e _ => .error e

end Wollet

/-! ## What the selections record -/

def SeqdexUnblindedInput.secrets (e : SeqdexUnblindedInput) : TxOutSecrets where
  asset := e.asset
  assetBf := e.assetBlinder
  value := e.amount
  valueBf := e.amountBlinder

/-- The inputs are some coins in order, each revealed under its index. -/
structure Taken.Records (coins : List WalletTxOut) (b : Build) (t : Taken) : Prop where
  inputs : b.pset.inputs.map (·.previousOutput) = coins.map (·.outpoint)
  outputs : b.pset.outputs = []
  count : t.nInputs.toNat = coins.length
  indices : t.unblindedInputs.map (·.index.toNat) = List.range coins.length
  secrets : t.unblindedInputs.map (·.secrets) = coins.map (·.unblinded)
  bounded : coins.length ≤ surjectionproofMaxNInputs

variable {x : Builder} {w : Wollet} {b b' : Build} {r : SeqdexSwapRequest}

theorem addInput_lt {proofs : Bool} {utxo : WalletTxOut} {idx : Nat}
    (h : w.addInput x proofs utxo b = .ok idx b') :
    b.pset.inputs.length < surjectionproofMaxNInputs := by
  obtain ⟨tx, -, h⟩ := liftExcept_bind_ok_iff.1 h
  obtain ⟨txout, -, h⟩ := liftExcept_bind_ok_iff.1 h
  replace h := get_bind_ok_iff.1 h
  obtain ⟨_, _, hlength, -⟩ := bind_ok_iff.1 h
  exact of_decide_eq_true (ensureElse_ok_iff.1 hlength).1

@[simp] theorem previousOutput_dropUnproved (i : PsetInput) :
    i.dropUnproved.previousOutput = i.previousOutput := by
  unfold PsetInput.dropUnproved
  split <;> rfl

theorem map_modify_of_eq {α β : Type} {f : α → α} {g : α → β} (h : ∀ a, g (f a) = g a)
    (l : List α) (idx : Nat) : (l.modify idx f).map g = l.map g := by
  induction l generalizing idx with
  | nil => cases idx <;> rfl
  | cons a l ih =>
    cases idx with
    | zero => simp [h]
    | succ idx => simpa using ih idx

section Selection

variable {x : Builder} {w : Wollet} {b b' : Build} {coins : List WalletTxOut} {t : Taken}

theorem Taken.Records.takeInput {utxo : WalletTxOut} {t' : Taken} (hr : t.Records coins b)
    (h : w.takeInput x utxo t b = .ok t' b') : t'.Records (coins ++ [utxo]) b' := by
  obtain ⟨idx, b₁, hadd, h⟩ := bind_ok_iff.1 h
  have hlt := addInput_lt hadd
  obtain ⟨rfl, hgrows⟩ := addInput_ok hadd
  replace h := modify_bind_ok_iff.1 h
  obtain ⟨rfl, rfl⟩ := pure_ok_iff.1 h
  have hlength : b.pset.inputs.length = coins.length := by
    simpa using congrArg length hr.inputs
  rw [hlength] at hlt
  have hindex : (UInt32.ofNat coins.length).toNat = coins.length :=
    UInt32.toNat_ofNat_of_lt' (hlt.trans (by decide))
  refine ⟨?_, ?_, ?_, ?_, ?_, ?_⟩
  · show ((b₁.pset.inputs.modify _ _).map _) = _
    rw [map_modify_of_eq previousOutput_dropUnproved, hgrows.outpoints, hr.inputs, map_append]
    rfl
  · show b₁.pset.outputs = []
    rw [hgrows.outputs, hr.outputs, append_nil]
  · have hcount : t.nInputs.toNat + 1 < 2 ^ 32 := by
      rw [hr.count]
      exact (Nat.succ_lt_succ hlt).trans (by decide)
    rw [UInt32.toNat_add, UInt32.toNat_one, Nat.mod_eq_of_lt hcount, hr.count, length_append,
      length_singleton]
  · rw [map_append, hr.indices, length_append, length_singleton, range_succ, hlength]
    simp [SeqdexUnblindedInput.reveal, hindex]
  · rw [map_append, hr.secrets, map_append]
    rfl
  · rw [length_append]
    exact hlt

theorem Taken.Records.select {target : UInt64} {l : List WalletTxOut} {selected : UInt64}
    {r : Taken × UInt64} (hr : t.Records coins b)
    (h : w.select x target l t selected b = .ok r b') :
    ∃ more, more.Sublist l ∧ r.1.Records (coins ++ more) b' ∧
      r.2.toNat = selected.toNat + total (·.unblinded.value) more := by
  induction l generalizing coins t selected b with
  | nil =>
    obtain ⟨rfl, rfl⟩ := pure_ok_iff.1 h
    exact ⟨[], .slnil, by rwa [append_nil], rfl⟩
  | cons utxo rest ih =>
    unfold Wollet.select at h
    by_cases hcovered : selected ≥ target
    · rw [if_pos hcovered] at h
      obtain ⟨rfl, rfl⟩ := pure_ok_iff.1 h
      exact ⟨[], nil_sublist _, by rwa [append_nil], rfl⟩
    · rw [if_neg hcovered] at h
      obtain ⟨t₁, b₁, htake, h⟩ := bind_ok_iff.1 h
      obtain ⟨sum, hsum, h⟩ := liftExcept_bind_ok_iff.1 h
      have hadd := checkedAdd_eq_some (okOr_ok_iff.1 hsum)
      obtain ⟨more, hsub, hrecords, htotal⟩ := ih (hr.takeInput htake) h
      refine ⟨utxo :: more, hsub.cons_cons _, ?_, ?_⟩
      · rwa [append_assoc] at hrecords
      · rw [htotal, hadd, total_cons, Nat.add_assoc]

theorem Taken.Records.fund {utxos : HashMap OutPoint WalletTxOut} {asset : AssetId}
    {target : UInt64} {r : Taken × UInt64} (hr : t.Records coins b)
    (h : w.fund x utxos asset target t b = .ok r b') :
    ∃ more, more.Sublist (Wollet.swapCandidates x utxos asset) ∧ r.1.Records (coins ++ more) b' ∧
      r.2.toNat = total (·.unblinded.value) more ∧ target ≤ r.2 := by
  obtain ⟨r', b₁, hselect, h⟩ := bind_ok_iff.1 h
  obtain ⟨hcovers, h⟩ := ensureElse_bind_ok_iff.1 h
  obtain ⟨rfl, rfl⟩ := pure_ok_iff.1 h
  obtain ⟨more, hsub, hrecords, htotal⟩ := hr.select hselect
  exact ⟨more, hsub, hrecords, htotal.trans (Nat.zero_add _), of_decide_eq_true hcovers⟩

end Selection

/-! ## What the outputs add up to -/

theorem toNat_dustThreshold (rate : UInt64) :
    (dustThreshold rate).toNat = if rate = 0 then 294 else 294 * 10 ^ 8 ⌈/⌉ rate.toNat := by
  unfold dustThreshold convertValueToAmount
  by_cases hrate : rate = 0
  · rw [if_pos hrate, if_pos hrate]
    rfl
  · rw [if_neg hrate, if_neg hrate, Nat.ceilDiv_eq_add_pred_div]
    have hpos : 0 < rate.toNat := by
      rw [Nat.pos_iff_ne_zero]
      exact fun hzero => hrate (UInt64.toNat_inj.1 hzero)
    have hle : (294 * 10 ^ 8 + rate.toNat - 1) / rate.toNat ≤ 294 * 10 ^ 8 := by
      rw [Nat.div_le_iff_le_mul_add_pred hpos]
      omega
    exact UInt64.toNat_ofNat_of_lt' (lt_of_le_of_lt hle (by decide))

namespace SeqdexSwapRequestOpts

/-- Change outputs, and fee outputs after them. -/
def rest (o : SeqdexSwapRequestOpts) (blindingPubkey : PublicKey)
    (change : List (UInt64 × AssetId)) (fees : List UInt64) : List PsetOutput :=
  change.map (fun c => o.outputTo blindingPubkey c.1 c.2 0) ++
    fees.map fun q => .newExplicit [] q o.feeAsset

/-- An amount goes into change above the dust threshold and a fee of at least what was asked. -/
structure Splits (o : SeqdexSwapRequestOpts) (amount : Nat) (change : List UInt64) (fee : UInt64) :
    Prop where
  total : total (fun a => a) change + fee.toNat = amount
  least : o.feeAmount ≤ fee
  dust : ∀ a ∈ change, dustThreshold o.feeRate < a

variable {o : SeqdexSwapRequestOpts} {key : PublicKey} {b b' : Build} {u : Unit}

theorem payFee_ok {change : UInt64} {asset : AssetId}
    (hfits : o.feeAmount.toNat + change.toNat < 2 ^ 64)
    (h : o.payFee key change asset b = .ok u b') :
    ∃ amounts fee, o.Splits (o.feeAmount.toNat + change.toNat) amounts fee ∧
      Grows b [] (o.rest key (amounts.map fun a => (a, asset)) [fee]) b' := by
  unfold payFee at h
  by_cases hdust : dustThreshold o.feeRate < change
  · rw [if_pos hdust] at h
    obtain ⟨_, b₁, hchange, hfee⟩ := bind_ok_iff.1 h
    refine ⟨[change], o.feeAmount, ⟨?_, UInt64.le_refl _, ?_⟩, ?_⟩
    · simp [Swk.total, Nat.add_comm]
    · simpa using hdust
    · exact (pushOutput_ok hchange).trans (pushOutput_ok hfee)
  · rw [if_neg hdust] at h
    have hsum : (o.feeAmount + change).toNat = o.feeAmount.toNat + change.toNat := by
      rw [UInt64.toNat_add, Nat.mod_eq_of_lt hfits]
    refine ⟨[], o.feeAmount + change, ⟨?_, ?_, ?_⟩, pushOutput_ok h⟩
    · simp [Swk.total, hsum]
    · rw [UInt64.le_iff_toNat_le, hsum]
      omega
    · simp

/-- What the change and the fees say, by asset, of what was selected. -/
structure Settled (o : SeqdexSwapRequestOpts) (assetPLeft feeSelected : Nat)
    (change : List (UInt64 × AssetId)) (fees : List UInt64) : Prop where
  sent : amountOf (·.2) (·.1) change o.assetP +
    (if o.feeAsset = o.assetP then total (fun q => q) fees else 0) = assetPLeft
  third : o.takerFundsFee = true → o.feeAsset ≠ o.assetP →
    amountOf (·.2) (·.1) change o.feeAsset + total (fun q => q) fees = feeSelected
  fee : if o.takerFundsFee then ∃ q, fees = [q] ∧ o.feeAmount ≤ q else fees = []
  dust : o.takerFundsFee = true → ∀ c ∈ change, c.2 = o.feeAsset → dustThreshold o.feeRate < c.1

theorem amountOf_one_asset (amounts : List UInt64) (asset a : AssetId) :
    amountOf (fun c : UInt64 × AssetId => c.2) (fun c => c.1) (amounts.map fun v => (v, asset)) a =
      if asset = a then total (fun v => v) amounts else 0 := by
  rw [amountOf_of_asset (c := asset)]
  · simp [total, Function.comp_def]
  · simp

variable {assetPChange feeSelected : UInt64}

theorem addRest_feeInAssetP (hfee : o.feeInAssetP = true)
    (hfits : o.feeAmount.toNat + assetPChange.toNat < 2 ^ 64)
    (h : o.addRest key assetPChange feeSelected b = .ok u b') : ∃ change fees,
      o.Settled (o.feeAmount.toNat + assetPChange.toNat) feeSelected.toNat change fees ∧
        Grows b [] (o.rest key change fees) b' := by
  unfold addRest at h
  rw [if_pos hfee] at h
  obtain ⟨htaker, hasset⟩ := (Bool.and_eq_true _ _).mp hfee
  have hasset := of_decide_eq_true hasset
  obtain ⟨amounts, fee, hsplits, hgrows⟩ := payFee_ok hfits h
  refine ⟨_, _, ⟨?_, ?_, ?_, ?_⟩, hgrows⟩
  · rw [amountOf_one_asset, if_pos rfl, if_pos hasset, ← hsplits.total]
    simp [total]
  · exact fun _ hne => absurd hasset hne
  · rw [if_pos htaker]
    exact ⟨fee, rfl, hsplits.least⟩
  · intro _ c hc _
    obtain ⟨a, ha, rfl⟩ := mem_map.1 hc
    exact hsplits.dust a ha

theorem rest_append (change change' : List (UInt64 × AssetId)) (fees : List UInt64) :
    o.rest key change [] ++ o.rest key change' fees = o.rest key (change ++ change') fees := by
  simp [rest]

/-- Change of the asset that is sent, unless there is none. -/
def changeOf (asset : AssetId) (change : UInt64) : List (UInt64 × AssetId) :=
  if 0 < change then [(change, asset)] else []

theorem amountOf_changeOf (asset a : AssetId) (change : UInt64) :
    amountOf (·.2) (·.1) (changeOf asset change) a = if asset = a then change.toNat else 0 := by
  unfold changeOf
  by_cases hchange : 0 < change
  · simp [if_pos hchange]
  · have hzero : change.toNat = 0 := by
      rw [UInt64.lt_iff_toNat_lt] at hchange
      exact Nat.eq_zero_of_not_pos hchange
    simp [if_neg hchange, hzero]

theorem addChangeOf_ok {change : UInt64}
    (h : runIf (decide (0 < change)) (o.addChange key change o.assetP) b = .ok u b') :
    Grows b [] (o.rest key (changeOf o.assetP change) []) b' := by
  unfold changeOf
  rcases runIf_ok_iff.1 h with ⟨hpos, hpush⟩ | ⟨hzero, rfl⟩
  · rw [if_pos (of_decide_eq_true hpos)]
    exact pushOutput_ok hpush
  · rw [if_neg (of_decide_eq_false hzero)]
    exact .refl _

theorem addRest_other (hfee : o.feeInAssetP = false)
    (hcovers : o.takerFundsFee = true → o.feeAmount ≤ feeSelected)
    (h : o.addRest key assetPChange feeSelected b = .ok u b') :
    ∃ change fees, o.Settled assetPChange.toNat feeSelected.toNat change fees ∧
      Grows b [] (o.rest key change fees) b' := by
  unfold addRest at h
  rw [hfee, if_neg Bool.false_ne_true] at h
  obtain ⟨_, b₁, hchange, h⟩ := bind_ok_iff.1 h
  have hgrows := addChangeOf_ok hchange
  have hsent := amountOf_changeOf o.assetP o.assetP assetPChange
  rw [if_pos rfl] at hsent
  rcases runIf_ok_iff.1 h with ⟨htaker, hpay⟩ | ⟨hmaker, rfl⟩
  · have hne : o.feeAsset ≠ o.assetP := by
      intro heq
      rw [feeInAssetP, htaker, decide_eq_true heq] at hfee
      cases hfee
    have hsub := UInt64.toNat_sub_of_le _ _ (hcovers htaker)
    have hle := UInt64.le_iff_toNat_le.1 (hcovers htaker)
    have hlt := feeSelected.toNat_lt
    obtain ⟨amounts, fee, hsplits, hrest⟩ := payFee_ok (by omega) hpay
    have htotal := hsplits.total
    have hthird := amountOf_one_asset amounts o.feeAsset
    refine ⟨_, _, ⟨?_, ?_, ?_, ?_⟩, rest_append _ _ _ ▸ hgrows.trans hrest⟩
    · rw [amountOf_append, hsent, hthird, if_neg hne, if_neg hne, Nat.add_zero]
    · intro _ _
      rw [amountOf_append, amountOf_changeOf, if_neg hne.symm, hthird, if_pos rfl, Nat.zero_add,
        total_cons]
      simp only [total, map_nil, sum_nil] at htotal ⊢
      omega
    · rw [if_pos htaker]
      exact ⟨fee, rfl, hsplits.least⟩
    · intro _ c hc hasset
      rcases mem_append.1 hc with hc | hc
      · unfold changeOf at hc
        split at hc
        · rw [mem_singleton.1 hc] at hasset
          exact absurd hasset.symm hne
        · cases hc
      · obtain ⟨a, ha, rfl⟩ := mem_map.1 hc
        exact hsplits.dust a ha
  · have hnot {P : Prop} (htaker : o.takerFundsFee = true) : P := by
      rw [hmaker] at htaker
      cases htaker
    refine ⟨_, _, ⟨?_, hnot, ?_, hnot⟩, hgrows⟩
    · rw [hsent]
      simp [total]
    · rw [hmaker, if_neg Bool.false_ne_true]

/-- **Settlement.** What was selected beyond the amount that is sent goes into change and fees. -/
theorem addRest_ok {fundAmount selected : UInt64} (hfund : o.fundAmount = .ok fundAmount)
    (hselected : fundAmount ≤ selected)
    (hcovers : o.takerFundsFee = true → o.feeAsset ≠ o.assetP → o.feeAmount ≤ feeSelected)
    (h : o.addRest key (selected - fundAmount) feeSelected b = .ok u b') :
    ∃ left change fees, selected.toNat = o.amountP.toNat + left ∧
      o.Settled left feeSelected.toNat change fees ∧ Grows b [] (o.rest key change fees) b' := by
  have hsub := UInt64.toNat_sub_of_le _ _ hselected
  have hle := UInt64.le_iff_toNat_le.1 hselected
  have hlt := selected.toNat_lt
  unfold SeqdexSwapRequestOpts.fundAmount at hfund
  by_cases hfee : o.feeInAssetP = true
  · rw [if_pos hfee] at hfund
    have hsum := checkedAdd_eq_some (okOr_ok_iff.1 hfund)
    obtain ⟨change, fees, hsettled, hgrows⟩ := addRest_feeInAssetP hfee (by omega) h
    exact ⟨_, change, fees, by omega, hsettled, hgrows⟩
  · rw [if_neg hfee] at hfund
    cases hfund
    have hthird : o.takerFundsFee = true → o.feeAmount ≤ feeSelected := by
      intro htaker
      refine hcovers htaker fun heq => hfee ?_
      rw [feeInAssetP, htaker, decide_eq_true heq]
      rfl
    obtain ⟨change, fees, hsettled, hgrows⟩ := addRest_other (Bool.eq_false_iff.2 hfee) hthird h
    exact ⟨_, change, fees, by omega, hsettled, hgrows⟩

end SeqdexSwapRequestOpts

/-! ## Balance -/

/-- A fee output: its script is empty and it is not to be blinded. -/
def PsetOutput.isFeeOutput (o : PsetOutput) : Bool :=
  decide (o.scriptPubkey = []) && o.blindingKey.isNone

/-- What some coins of the wallet are worth of an asset. -/
def utxosWorth (coins : List WalletTxOut) (a : AssetId) : Nat :=
  amountOf (fun c : WalletTxOut => c.unblinded.asset) (fun c => c.unblinded.value) coins a

theorem utxosWorth_append (coins coins' : List WalletTxOut) (a : AssetId) :
    utxosWorth (coins ++ coins') a = utxosWorth coins a + utxosWorth coins' a :=
  amountOf_append coins coins' a

def outputsPay (outputs : List PsetOutput) (a : AssetId) : Nat := (outputs.map (·.paidOf a)).sum

namespace SeqdexSwapRequest

/-- The change outputs: after the first output, which receives, those that are no fee. -/
def change (r : SeqdexSwapRequest) : List PsetOutput :=
  r.transaction.outputs.tail.filter fun o => !o.isFeeOutput

def fees (r : SeqdexSwapRequest) : List PsetOutput :=
  r.transaction.outputs.tail.filter PsetOutput.isFeeOutput

/-- A request that spends some coins balances. -/
structure Balances (opts : SeqdexSwapRequestOpts) (coins : List WalletTxOut)
    (r : SeqdexSwapRequest) : Prop where
  inputs : r.transaction.inputs.map (·.previousOutput) = coins.map (·.outpoint)
  nodup : (coins.map (·.outpoint)).Nodup
  /-- Each index is revealed once, with what is behind the coin there. -/
  indices : r.unblindedInputs.map (·.index.toNat) = List.range r.transaction.inputs.length
  secrets : r.unblindedInputs.map (·.secrets) = coins.map (·.unblinded)
  /-- The first output receives, and is for the owner of the next input to blind. -/
  receive : ∃ o, r.transaction.outputs.head? = some o ∧ o.amount = some opts.amountR ∧
    o.asset = some opts.assetR ∧ o.blinderIndex = some r.transaction.inputs.length
  /-- Of the asset that is sent, the amount is sent that is neither change nor fee. -/
  sent : utxosWorth coins opts.assetP =
    opts.amountP.toNat + outputsPay r.change opts.assetP + outputsPay r.fees opts.assetP
  /-- Of a third asset that pays the fee, nothing is sent. -/
  third : 0 < opts.feeAmount → opts.feeAsset ≠ opts.assetP → utxosWorth coins opts.feeAsset =
    outputsPay r.change opts.feeAsset + outputsPay r.fees opts.feeAsset
  /-- The taker pays the fee it asked for, or none. -/
  fee : if 0 < opts.feeAmount then
      ∃ o q, r.fees = [o] ∧ o.asset = some opts.feeAsset ∧ o.amount = some q ∧ opts.feeAmount ≤ q
    else r.fees = []
  /-- If it pays a fee, no change of the fee asset is dust. -/
  dust : 0 < opts.feeAmount → ∀ o ∈ r.change, o.asset = some opts.feeAsset →
    ∃ amount, o.amount = some amount ∧
      (if opts.feeRate = 0 then 294 else 294 * 10 ^ 8 ⌈/⌉ opts.feeRate.toNat) < amount.toNat

end SeqdexSwapRequest

namespace SeqdexSwapRequestOpts

variable {o : SeqdexSwapRequestOpts} {key : PublicKey}

theorem filter_rest_change (change : List (UInt64 × AssetId)) (fees : List UInt64) :
    (o.rest key change fees).filter (fun out => !out.isFeeOutput) =
      change.map fun c => o.outputTo key c.1 c.2 0 := by
  simp [rest, filter_map, Function.comp_def, PsetOutput.isFeeOutput, outputTo,
    PsetOutput.newExplicit]

theorem filter_rest_fees (change : List (UInt64 × AssetId)) (fees : List UInt64) :
    (o.rest key change fees).filter PsetOutput.isFeeOutput =
      fees.map fun q => .newExplicit [] q o.feeAsset := by
  simp [rest, filter_map, Function.comp_def, PsetOutput.isFeeOutput, outputTo,
    PsetOutput.newExplicit]

theorem outputsPay_change (change : List (UInt64 × AssetId)) (a : AssetId) :
    outputsPay (change.map fun c => o.outputTo key c.1 c.2 0) a =
      amountOf (·.2) (·.1) change a := by
  simp [outputsPay, amountOf, Function.comp_def, PsetOutput.paidOf, outputTo]

theorem outputsPay_fees (fees : List UInt64) (a : AssetId) :
    outputsPay (fees.map fun q => .newExplicit [] q o.feeAsset) a =
      if o.feeAsset = a then total (fun q => q) fees else 0 := by
  by_cases hasset : o.feeAsset = a
  · simp [outputsPay, total, Function.comp_def, PsetOutput.paidOf, PsetOutput.newExplicit, hasset]
  · simp [outputsPay, Function.comp_def, PsetOutput.paidOf, PsetOutput.newExplicit, hasset]

end SeqdexSwapRequestOpts

section Coins

variable {x : Builder} {w : Wollet} {all : HashMap OutPoint WalletTxOut} {asset asset' : AssetId}
variable {l l' : List WalletTxOut}

theorem mem_swapCandidates {c : WalletTxOut} (h : c ∈ Wollet.swapCandidates x all asset) :
    c ∈ all.values ∧ c.unblinded.asset = asset := by
  rw [Wollet.swapCandidates, mem_insertionSort] at h
  exact mem_coinsOf.1 h

theorem swapCandidates_nodup (hat : AtOutpoints all) :
    ((Wollet.swapCandidates x all asset).map (·.outpoint)).Nodup := by
  unfold Wollet.swapCandidates
  rw [((perm_insertionSort _ _).map _).nodup_iff]
  exact (ordered_nodup x hat).sublist (filter_sublist.map _)

theorem selections_nodup (hat : AtOutpoints all) (hne : asset ≠ asset')
    (h : l.Sublist (Wollet.swapCandidates x all asset))
    (h' : l'.Sublist (Wollet.swapCandidates x all asset')) :
    ((l ++ l').map (·.outpoint)).Nodup := by
  rw [map_append, nodup_append']
  refine ⟨(swapCandidates_nodup hat).sublist (h.map _),
    (swapCandidates_nodup hat).sublist (h'.map _), ?_⟩
  intro o ho ho'
  obtain ⟨c, hc, rfl⟩ := mem_map.1 ho
  obtain ⟨c', hc', houtpoint⟩ := mem_map.1 ho'
  obtain ⟨hvalue, hasset⟩ := mem_swapCandidates (h.subset hc)
  obtain ⟨hvalue', hasset'⟩ := mem_swapCandidates (h'.subset hc')
  -- one outpoint has one coin, and the coin one asset
  have hlookup := mem_values_atOutpoints hat hvalue
  have hlookup' := mem_values_atOutpoints hat hvalue'
  rw [houtpoint, hlookup] at hlookup'
  cases hlookup'
  exact hne (hasset.symm.trans hasset')

theorem utxosWorth_selection (h : l.Sublist (Wollet.swapCandidates x all asset)) (a : AssetId) :
    utxosWorth l a = if asset = a then total (·.unblinded.value) l else 0 :=
  amountOf_of_asset (fun _ hc => (mem_swapCandidates (h.subset hc)).2) a

/-- The coins of the second selection, and their sum: of a third asset, or none. -/
inductive FeeSelection (x : Builder) (all : HashMap OutPoint WalletTxOut)
    (opts : SeqdexSwapRequestOpts) : List WalletTxOut → UInt64 → Prop
  | third {coins : List WalletTxOut} {selected : UInt64} (hne : opts.feeAsset ≠ opts.assetP)
      (hsub : coins.Sublist (Wollet.swapCandidates x all opts.feeAsset))
      (htotal : selected.toNat = total (·.unblinded.value) coins)
      (hcovers : opts.feeAmount ≤ selected) : FeeSelection x all opts coins selected
  | none (h : opts.takerFundsFee = true → opts.feeAsset = opts.assetP) :
      FeeSelection x all opts [] 0

theorem Taken.Records.fundFee {opts : SeqdexSwapRequestOpts} {coins : List WalletTxOut} {t : Taken}
    {b b' : Build} {r : Taken × UInt64} (hr : t.Records coins b)
    (h : w.fundFee x all opts t b = .ok r b') :
    ∃ more, r.1.Records (coins ++ more) b' ∧ FeeSelection x all opts more r.2 := by
  unfold Wollet.fundFee at h
  by_cases hthird : (opts.takerFundsFee && !opts.feeInAssetP) = true
  · rw [if_pos hthird] at h
    obtain ⟨more, hsub, hrecords, htotal, hcovers⟩ := hr.fund h
    obtain ⟨htaker, hother⟩ := (Bool.and_eq_true _ _).mp hthird
    refine ⟨more, hrecords, .third ?_ hsub htotal hcovers⟩
    intro heq
    simp [SeqdexSwapRequestOpts.feeInAssetP, htaker, heq] at hother
  · rw [if_neg hthird] at h
    obtain ⟨rfl, rfl⟩ := pure_ok_iff.1 h
    refine ⟨[], by rwa [append_nil], .none ?_⟩
    intro htaker
    simpa [SeqdexSwapRequestOpts.feeInAssetP, htaker] using hthird

namespace FeeSelection

variable {opts : SeqdexSwapRequestOpts} {coins : List WalletTxOut} {selected : UInt64}
variable (h : FeeSelection x all opts coins selected)

include h

theorem mem_values {c : WalletTxOut} (hc : c ∈ coins) :
    c ∈ all.values := by
  cases h with
  | third _ hsub => exact (mem_swapCandidates (hsub.subset hc)).1
  | none => cases hc

theorem nodup (hat : AtOutpoints all) (hl : l.Sublist (Wollet.swapCandidates x all opts.assetP)) :
    ((l ++ coins).map (·.outpoint)).Nodup := by
  cases h with
  | third hne hsub => exact selections_nodup hat hne.symm hl hsub
  | none =>
    rw [append_nil]
    exact (swapCandidates_nodup hat).sublist (hl.map _)

theorem utxosWorth_assetP :
    utxosWorth coins opts.assetP = 0 := by
  cases h with
  | third hne hsub => rw [utxosWorth_selection hsub, if_neg hne]
  | none => rfl

theorem utxosWorth_feeAsset (htaker : opts.takerFundsFee = true)
    (hne : opts.feeAsset ≠ opts.assetP) :
    utxosWorth coins opts.feeAsset = selected.toNat ∧ opts.feeAmount ≤ selected := by
  cases h with
  | third _ hsub htotal hcovers =>
    rw [utxosWorth_selection hsub, if_pos rfl]
    exact ⟨htotal.symm, hcovers⟩
  | none hsame => exact absurd (hsame htaker) hne

end FeeSelection

end Coins

theorem SeqdexSwapRequestOpts.Settled.balances {opts : SeqdexSwapRequestOpts} {key : PublicKey}
    {left feeSelected : Nat} {change : List (UInt64 × AssetId)} {fees : List UInt64}
    {coins : List WalletTxOut} {t : Taken} (hsettled : opts.Settled left feeSelected change fees)
    (hrecords : t.Records coins b) (hinputs : r.transaction.inputs = b.pset.inputs)
    (hunblinded : r.unblindedInputs = t.unblindedInputs)
    (houtputs : r.transaction.outputs = opts.outputTo key opts.amountR opts.assetR
      t.nInputs.toNat :: opts.rest key change fees)
    (hnodup : (coins.map (·.outpoint)).Nodup)
    (hsent : utxosWorth coins opts.assetP = opts.amountP.toNat + left)
    (hthird : opts.takerFundsFee = true → opts.feeAsset ≠ opts.assetP →
      utxosWorth coins opts.feeAsset = feeSelected) :
    r.Balances opts coins := by
  have hlength : r.transaction.inputs.length = coins.length := by
    rw [hinputs]
    simpa using congrArg length hrecords.inputs
  have hchange : r.change = change.map fun c => opts.outputTo key c.1 c.2 0 := by
    rw [SeqdexSwapRequest.change, houtputs, tail_cons, filter_rest_change]
  have hfees : r.fees = fees.map fun q => .newExplicit [] q opts.feeAsset := by
    rw [SeqdexSwapRequest.fees, houtputs, tail_cons, filter_rest_fees]
  refine ⟨?_, hnodup, ?_, ?_, ?_, ?_, ?_, ?_, ?_⟩
  · rw [hinputs, hrecords.inputs]
  · rw [hunblinded, hrecords.indices, hlength]
  · rw [hunblinded, hrecords.secrets]
  · rw [houtputs, hlength, ← hrecords.count]
    exact ⟨_, rfl, rfl, rfl, rfl⟩
  · rw [hchange, hfees, outputsPay_change, outputsPay_fees, hsent, ← hsettled.sent, Nat.add_assoc]
  · intro htaker hne
    have htaker : opts.takerFundsFee = true := decide_eq_true htaker
    rw [hchange, hfees, outputsPay_change, outputsPay_fees, if_pos rfl, hthird htaker hne,
      hsettled.third htaker hne]
  · have hfee := hsettled.fee
    by_cases htaker : 0 < opts.feeAmount
    · rw [SeqdexSwapRequestOpts.takerFundsFee, decide_eq_true htaker, if_pos rfl] at hfee
      obtain ⟨q, rfl, hle⟩ := hfee
      rw [if_pos htaker, hfees]
      exact ⟨_, q, rfl, rfl, rfl, hle⟩
    · rw [SeqdexSwapRequestOpts.takerFundsFee, decide_eq_false htaker,
        if_neg Bool.false_ne_true] at hfee
      rw [if_neg htaker, hfees, hfee, map_nil]
  · intro htaker o ho hasset
    rw [hchange] at ho
    obtain ⟨c, hc, rfl⟩ := mem_map.1 ho
    refine ⟨c.1, rfl, ?_⟩
    have hdust := hsettled.dust (decide_eq_true htaker) c hc (Option.some.inj hasset)
    rw [UInt64.lt_iff_toNat_lt, toNat_dustThreshold] at hdust
    exact hdust

theorem swapRequest_balances {opts : SeqdexSwapRequestOpts}
    (h : w.swapRequest x opts (TxBuilder.start w) = .ok r b') :
    ∃ coins, (∀ c ∈ coins, ∃ all, w.utxosMap = .ok all ∧ all.lookup c.outpoint = some c) ∧
      r.Balances opts coins := by
  obtain ⟨_, -, h⟩ := liftExcept_bind_ok_iff.1 h
  obtain ⟨fundAmount, hfund, h⟩ := liftExcept_bind_ok_iff.1 h
  obtain ⟨key, -, h⟩ := liftExcept_bind_ok_iff.1 h
  obtain ⟨all, hall, h⟩ := liftExcept_bind_ok_iff.1 h
  have hat := utxosMap_atOutpoints hall
  have hstart : Taken.Records [] (TxBuilder.start w) ⟨0, []⟩ :=
    ⟨rfl, rfl, rfl, rfl, rfl, Nat.zero_le _⟩
  obtain ⟨p, b₁, hp, h⟩ := bind_ok_iff.1 h
  obtain ⟨coins, hcoins, hrecords₁, hselected, hcovers⟩ := hstart.fund hp
  obtain ⟨fee, b₂, hfee, h⟩ := bind_ok_iff.1 h
  obtain ⟨feeCoins, hrecords, hsecond⟩ := hrecords₁.fundFee hfee
  obtain ⟨_, b₃, hreceive, h⟩ := bind_ok_iff.1 h
  obtain ⟨_, b₄, hrest, h⟩ := bind_ok_iff.1 h
  replace h := get_bind_ok_iff.1 h
  obtain ⟨rfl, rfl⟩ := pure_ok_iff.1 h
  obtain ⟨left, change, fees, hleft, hsettled, hgrows⟩ := SeqdexSwapRequestOpts.addRest_ok hfund
    hcovers (fun htaker hne => (hsecond.utxosWorth_feeAsset htaker hne).2) hrest
  have houts := (pushOutput_ok hreceive).trans hgrows
  have houtputs : b₄.pset.outputs =
      opts.outputTo key opts.amountR opts.assetR fee.1.nInputs.toNat ::
        opts.rest key change fees := by
    rw [houts.outputs, hrecords.outputs]
    rfl
  refine ⟨coins ++ feeCoins, ?_, ?_⟩
  · intro c hc
    refine ⟨all, hall, mem_values_atOutpoints hat ?_⟩
    rcases mem_append.1 hc with hc | hc
    · exact (mem_swapCandidates (hcoins.subset hc)).1
    · exact hsecond.mem_values hc
  · refine hsettled.balances hrecords houts.same_inputs rfl houtputs (hsecond.nodup hat hcoins)
      ?_ ?_
    · rw [utxosWorth_append, utxosWorth_selection hcoins, if_pos rfl, hsecond.utxosWorth_assetP,
        Nat.add_zero, ← hselected, hleft]
    · intro htaker hne
      rw [utxosWorth_append, utxosWorth_selection hcoins, if_neg hne.symm,
        (hsecond.utxosWorth_feeAsset htaker hne).1, Nat.zero_add]

/-- **Swap requests balance.** The inputs of a request are coins of the wallet, none of them twice,
each revealed under its own index; what the taker sends is what it spends less its change and its
fee; and if it pays a fee, no change in the fee asset is dust. -/
theorem seqdexSwapRequest_balances (x : Builder) (w : Wollet) (opts : SeqdexSwapRequestOpts)
    (r : SeqdexSwapRequest) (h : w.seqdexSwapRequest x opts = .ok r) :
    ∃ coins, (∀ c ∈ coins, ∃ all, w.utxosMap = .ok all ∧ all.lookup c.outpoint = some c) ∧
      r.Balances opts coins := by
  unfold Wollet.seqdexSwapRequest at h
  cases hrun : w.swapRequest x opts (TxBuilder.start w) with
  | ok r' b =>
    rw [hrun] at h
    cases h
    exact swapRequest_balances hrun
  | error e b =>
    rw [hrun] at h
    cases h

/-! ## Change of a maker-funded swap -/

namespace MakerFunded

def paying : Transaction :=
  ⟨[], [⟨.explicit 1, .explicit 100000, .null, Concrete.script 0, none⟩,
    ⟨.explicit 2, .explicit 700, .null, Concrete.script 0, none⟩]⟩

def env : Env := Concrete.env (fun _ => 7) [Concrete.script 0]

def wallet : Wollet := Concrete.funded env [paying]

def opts : SeqdexSwapRequestOpts where
  assetP := 1
  amountP := 99999
  assetR := 3
  amountR := 50
  receiveAddress := ⟨Concrete.script 0, some ⟨false, 5⟩⟩
  feeAsset := 1
  feeAmount := 0
  feeRate := 100000000

def nothing : SeqdexSwapRequest := ⟨0, 0, 0, 0, .new, []⟩

/-- One atom of the asset that is sent comes back, far below the dust threshold at the rate. -/
theorem change_below_dust : opts.assetP ≠ opts.assetR ∧
    ∃ r, wallet.seqdexSwapRequest (Concrete.builder env) opts = .ok r ∧
      ∃ o ∈ r.change, o.asset = some opts.feeAsset ∧
        o.paidOf opts.feeAsset < 294 * 10 ^ 8 ⌈/⌉ opts.feeRate.toNat :=
  ⟨by decide, _, Concrete.eq_ok_value (a := nothing) (by decide), by decide⟩

def takerFunded : SeqdexSwapRequestOpts := { opts with feeAsset := 2, feeAmount := 600 }

theorem seqdexSwapRequest_balances_takerFunded : ∃ coins,
    (∀ c ∈ coins, ∃ all, wallet.utxosMap = .ok all ∧ all.lookup c.outpoint = some c) ∧
      (Concrete.value (wallet.seqdexSwapRequest (Concrete.builder env) takerFunded)
        nothing).Balances takerFunded coins :=
  seqdexSwapRequest_balances (Concrete.builder env) wallet takerFunded _
    (Concrete.eq_ok_value (by decide))

end MakerFunded

end Swk
