import Mathlib.Algebra.GroupWithZero.Nat
import Mathlib.Data.List.Sort
import Swk.Elements
import Swk.HashMap
import Swk.MachineInt

/-!
# Staking rewards

Which coins a staker was paid, and which of them to convert, following `staking_rewards.rs`. Both
are functions of what the wallet knows: attribution goes through the wallet's transactions and
keeps the outputs that are rewards; policy groups the rewards that can be sold by asset and
decides, for the quote of a batch, whether to sell.
-/

namespace Swk

open List

namespace Staking

/-! ## Attribution -/

/-- Which of the four ways a staker gets paid produced a coin. -/
inductive RewardSource
  | solo
  | direct
  | lottery
  | split
deriving DecidableEq

structure StakingReward where
  outpoint : OutPoint
  asset : AssetId
  value : UInt64
  source : RewardSource
  height : Option Height
  blocksToMaturity : UInt32
  spent : Bool
deriving DecidableEq

def StakingReward.mature (r : StakingReward) : Bool := r.blocksToMaturity == 0

def StakingReward.convertible (r : StakingReward) : Bool := r.mature && !r.spent

structure OwnedOutput where
  vout : Nat
  scriptPubkey : Script
  asset : AssetId
  value : UInt64
  spent : Bool
deriving DecidableEq

/-- A wallet transaction, reduced to what attribution depends on. -/
structure TxFacts where
  txid : Txid
  height : Option Height
  isCoinbase : Bool
  fromMe : Bool
  ownedOutputs : List OwnedOutput
deriving DecidableEq

/-- The keys a reward can be paid on, by the script that pays them. -/
abbrev StakingScripts := HashMap Script PublicKey

inductive SignerRelation
  | selfSigning
  | delegated
deriving DecidableEq

def blocksToMaturity (height : Option Height) (tipHeight coinbaseMaturity : UInt32) : UInt32 :=
  match height with
  | none => saturatingAdd32 coinbaseMaturity 1
  | some h =>
    let depth := saturatingAdd32 (saturatingSub32 tipHeight h) 1
    saturatingSub32 (saturatingAdd32 coinbaseMaturity 1) depth

/-- What attribution is told besides the transactions. -/
structure Attribution where
  stakingScripts : StakingScripts
  signerRelation : HashMap PublicKey SignerRelation
  tipHeight : UInt32
  coinbaseMaturity : UInt32

namespace Attribution

variable (f : Attribution)

/-- The source of a reward; none if the output is an ordinary receive. -/
def sourceOf (isCoinbase : Bool) (stakingKey : Option PublicKey) : Option RewardSource :=
  match isCoinbase, stakingKey with
  | false, some _ => some .split
  | true, some k =>
    match f.signerRelation.lookup k with
    | some .delegated => some .lottery
    | _ => some .solo
  | true, none => some .direct
  | false, none => none

/-- The reward an output of a transaction is, if it is one. -/
def rewardOf (tx : TxFacts) (o : OwnedOutput) : Option StakingReward :=
  if o.value = 0 then none
  else
    let stakingKey := f.stakingScripts.lookup o.scriptPubkey
    if !tx.isCoinbase && stakingKey.isNone then none
    else
      (f.sourceOf tx.isCoinbase stakingKey).map fun source =>
        { outpoint := ⟨tx.txid, o.vout⟩
          asset := o.asset
          value := o.value
          source := source
          height := tx.height
          blocksToMaturity :=
            if tx.isCoinbase then blocksToMaturity tx.height f.tipHeight f.coinbaseMaturity else 0
          spent := o.spent }

/-- The rewards of a transaction. The wallet's own spending is never one. -/
def rewardsOf (tx : TxFacts) : List StakingReward :=
  if !tx.isCoinbase && tx.fromMe then [] else tx.ownedOutputs.filterMap (f.rewardOf tx)

end Attribution

/-- The height a listing goes by: an unconfirmed reward counts as newest. -/
def StakingReward.sortHeight (r : StakingReward) : UInt32 :=
  r.height.getD (UInt32.ofNat (2 ^ 32 - 1))

/-- The order of the listing: newest first, then by outpoint. -/
def comesFirst (a b : StakingReward) : Prop :=
  b.sortHeight < a.sortHeight ∨ a.sortHeight = b.sortHeight ∧
    (a.outpoint.txid.toNat < b.outpoint.txid.toNat ∨
      a.outpoint.txid.toNat = b.outpoint.txid.toNat ∧ a.outpoint.vout ≤ b.outpoint.vout)

instance : DecidableRel comesFirst := fun a b =>
  inferInstanceAs (Decidable (b.sortHeight < a.sortHeight ∨ a.sortHeight = b.sortHeight ∧
    (a.outpoint.txid.toNat < b.outpoint.txid.toNat ∨
      a.outpoint.txid.toNat = b.outpoint.txid.toNat ∧ a.outpoint.vout ≤ b.outpoint.vout)))

def attributeRewards (f : Attribution) (txs : List TxFacts) : List StakingReward :=
  (txs.flatMap f.rewardsOf).insertionSort comesFirst

/-! ## What attribution finds -/

/-- The outputs of the wallet, each with its transaction. -/
def owned (txs : List TxFacts) : List (TxFacts × OwnedOutput) :=
  txs.flatMap fun tx => tx.ownedOutputs.map fun o => (tx, o)

def outpointOf (e : TxFacts × OwnedOutput) : OutPoint := ⟨e.1.txid, e.2.vout⟩

/-- A reward is about an output: same place, coin, height and use. -/
structure Records (e : TxFacts × OwnedOutput) (r : StakingReward) : Prop where
  outpoint : r.outpoint = outpointOf e
  asset : r.asset = e.2.asset
  value : r.value = e.2.value
  height : r.height = e.1.height
  spent : r.spent = e.2.spent

/-- The depth of a block: the tip has depth one. As in the source, so has a height above the tip;
with maturity zero a coinbase there is due. -/
def depth (tipHeight height : UInt32) : Nat := tipHeight.toNat - height.toNat + 1

namespace Attribution

variable (f : Attribution)

/-- An output is a reward: it has a value, and is on a coinbase, or is paid to a staking script by
somebody else. -/
def IsReward (e : TxFacts × OwnedOutput) : Prop :=
  e.2.value ≠ 0 ∧ (e.1.isCoinbase = true ∨
    e.1.isCoinbase = false ∧ e.1.fromMe = false ∧ e.2.scriptPubkey ∈ f.stakingScripts)

/-- The outputs of a transaction can be spent: it is no coinbase, or is deeper than the
maturity. -/
def Due (tx : TxFacts) : Prop :=
  tx.isCoinbase = false ∨ ∃ h, tx.height = some h ∧ f.coinbaseMaturity.toNat < depth f.tipHeight h

/-- A coinbase that is as deep as the largest maturity and no deeper: one more than that maturity
is not a `u32`, so its wait is one block short. -/
def Early (tx : TxFacts) : Prop :=
  tx.isCoinbase = true ∧ f.coinbaseMaturity.toNat = 2 ^ 32 - 1 ∧
    ∃ h, tx.height = some h ∧ depth f.tipHeight h = 2 ^ 32 - 1

/-- What the loops of `attribute_rewards` make of an output. -/
def found (e : TxFacts × OwnedOutput) : Option StakingReward :=
  if !e.1.isCoinbase && e.1.fromMe then none else f.rewardOf e.1 e.2

theorem flatMap_rewardsOf (txs : List TxFacts) :
    txs.flatMap f.rewardsOf = (owned txs).filterMap f.found := by
  rw [owned, filterMap_flatMap]
  refine flatMap_congr fun tx _ => ?_
  rw [filterMap_map, rewardsOf]
  by_cases h : (!tx.isCoinbase && tx.fromMe) = true
  · rw [if_pos h]
    exact (filterMap_eq_nil_iff.2 fun o _ => if_pos h).symm
  · rw [if_neg h]
    exact filterMap_congr fun o _ => (if_neg h).symm

variable {f} {e : TxFacts × OwnedOutput} {r : StakingReward}

theorem found_spec (h : f.found e = some r) :
    Records e r ∧ r.blocksToMaturity = if e.1.isCoinbase then
      Staking.blocksToMaturity e.1.height f.tipHeight f.coinbaseMaturity else 0 := by
  unfold found rewardOf at h
  split at h
  · cases h
  · split at h
    · cases h
    · simp only at h
      split at h
      · cases h
      · obtain ⟨source, -, rfl⟩ := Option.map_eq_some_iff.1 h
        exact ⟨⟨rfl, rfl, rfl, rfl, rfl⟩, rfl⟩

theorem isSome_sourceOf (isCoinbase : Bool) (k : Option PublicKey) :
    (f.sourceOf isCoinbase k).isSome = (isCoinbase || k.isSome) := by
  unfold sourceOf
  cases isCoinbase <;> cases k <;> simp
  split <;> rfl

theorem isSome_found : (f.found e).isSome = true ↔ f.IsReward e := by
  have hkey : (f.stakingScripts.lookup e.2.scriptPubkey).isSome = true ↔
      e.2.scriptPubkey ∈ f.stakingScripts := AList.lookup_isSome
  unfold found rewardOf IsReward
  rw [← hkey]
  cases hcb : e.1.isCoinbase <;> cases hme : e.1.fromMe <;>
    cases hk : f.stakingScripts.lookup e.2.scriptPubkey <;>
    by_cases hv : e.2.value = 0 <;> simp [hv, isSome_sourceOf]

theorem nodup_map_outpoint {l : List (TxFacts × OwnedOutput)} (h : (l.map outpointOf).Nodup) :
    ((l.filterMap f.found).map (·.outpoint)).Nodup := by
  refine List.Nodup.sublist ?_ h
  clear h
  induction l with
  | nil => simp
  | cons e l ih =>
    cases hfound : f.found e with
    | none =>
      rw [filterMap_cons_none hfound]
      exact ih.cons _
    | some r =>
      rw [filterMap_cons_some hfound, map_cons, map_cons, (found_spec hfound).1.outpoint]
      exact ih.cons_cons _

theorem blocksToMaturity_eq_zero_iff (height : Option Height) (tip maturity : UInt32) :
    Staking.blocksToMaturity height tip maturity = 0 ↔
      ∃ h, height = some h ∧ (maturity.toNat < depth tip h ∨
        maturity.toNat = 2 ^ 32 - 1 ∧ depth tip h = 2 ^ 32 - 1) := by
  have hmax : maturity.toNat < 2 ^ 32 := maturity.toNat_lt
  rw [← UInt32.toNat_inj, UInt32.toNat_zero]
  cases height with
  | none =>
    rw [Staking.blocksToMaturity, toNat_saturatingAdd32]
    simp
  | some h =>
    have htip : tip.toNat < 2 ^ 32 := tip.toNat_lt
    simp only [Staking.blocksToMaturity, toNat_saturatingSub32, toNat_saturatingAdd32, depth,
      Option.some.injEq, exists_eq_left']
    simp only [UInt32.reduceToNat]
    omega

/-- **Maturity.** The saturating sum counts a block down exactly, but for the coinbase at the edge
of the largest maturity. -/
theorem mature_iff (h : f.found e = some r) : r.mature = true ↔ f.Due e.1 ∨ f.Early e.1 := by
  rw [StakingReward.mature, beq_iff_eq, (found_spec h).2, Due, Early]
  cases hcb : e.1.isCoinbase with
  | false => simp
  | true =>
    rw [if_pos rfl, blocksToMaturity_eq_zero_iff]
    simp only [Bool.true_eq_false, false_or, true_and]
    refine ⟨?_, ?_⟩
    · rintro ⟨h, hh, hdue | ⟨hmax, hdepth⟩⟩
      · exact .inl ⟨h, hh, hdue⟩
      · exact .inr ⟨hmax, h, hh, hdepth⟩
    · rintro (⟨h, hh, hdue⟩ | ⟨hmax, h, hh, hdepth⟩)
      · exact ⟨h, hh, .inl hdue⟩
      · exact ⟨h, hh, .inr ⟨hmax, hdepth⟩⟩

end Attribution

/-! ## The order of the listing -/

theorem comesFirst_trans {a b c : StakingReward} (hab : comesFirst a b) (hbc : comesFirst b c) :
    comesFirst a c := by
  unfold comesFirst at *
  simp only [UInt32.lt_iff_toNat_lt, ← UInt32.toNat_inj] at *
  omega

theorem comesFirst_total (a b : StakingReward) : comesFirst a b ∨ comesFirst b a := by
  unfold comesFirst
  simp only [UInt32.lt_iff_toNat_lt, ← UInt32.toNat_inj]
  omega

instance : IsTrans StakingReward comesFirst := ⟨fun _ _ _ => comesFirst_trans⟩

instance : Std.Total comesFirst := ⟨comesFirst_total⟩

theorem outpoint_eq_of_comesFirst {a b : StakingReward} (hab : comesFirst a b)
    (hba : comesFirst b a) : a.outpoint = b.outpoint := by
  have hplace : a.outpoint.txid.toNat = b.outpoint.txid.toNat ∧
      a.outpoint.vout = b.outpoint.vout := by
    unfold comesFirst at hab hba
    simp only [UInt32.lt_iff_toNat_lt, ← UInt32.toNat_inj] at hab hba
    omega
  cases ha : a.outpoint
  cases hb : b.outpoint
  rw [ha, hb] at hplace
  rw [OutPoint.mk.injEq]
  exact ⟨BitVec.eq_of_toNat_eq hplace.1, hplace.2⟩

section Listing

variable (f : Attribution) (txs : List TxFacts)

theorem attributeRewards_perm : (attributeRewards f txs).Perm ((owned txs).filterMap f.found) := by
  rw [← f.flatMap_rewardsOf]
  exact perm_insertionSort _ _

theorem mem_attributeRewards {r : StakingReward} :
    r ∈ attributeRewards f txs ↔ ∃ e ∈ owned txs, f.found e = some r := by
  rw [(attributeRewards_perm f txs).mem_iff, mem_filterMap]

variable {f txs}

theorem attributeRewards_nodup (h : ((owned txs).map outpointOf).Nodup) :
    ((attributeRewards f txs).map (·.outpoint)).Nodup :=
  ((attributeRewards_perm f txs).map _).nodup_iff.2 (Attribution.nodup_map_outpoint h)

/-- **Order independence.** Sorted lists with the same rewards are the same: two that compare as
equal have one outpoint. -/
theorem attributeRewards_eq_of_perm {txs' : List TxFacts}
    (h : ((owned txs).map outpointOf).Nodup) (hperm : txs'.Perm txs) :
    attributeRewards f txs' = attributeRewards f txs := by
  have hrewards : (attributeRewards f txs').Perm (attributeRewards f txs) :=
    (perm_insertionSort _ _).trans ((hperm.flatMap_right _).trans (perm_insertionSort _ _).symm)
  refine hrewards.eq_of_pairwise ?_ (pairwise_insertionSort _ _) (pairwise_insertionSort _ _)
  intro a b ha hb hab hba
  exact inj_on_of_nodup_map (attributeRewards_nodup h) (hrewards.mem_iff.1 ha) hb
    (outpoint_eq_of_comesFirst hab hba)

end Listing

/-! ## Policy -/

inductive ConvertTarget
  | nativeBtc
  | asset (a : AssetId)
deriving DecidableEq

def ConvertTarget.isTargetAsset (t : ConvertTarget) (a : AssetId) : Bool :=
  match t with
  | .nativeBtc => false
  | .asset b => b == a

structure AutoConvertSettings where
  enabled : Bool
  target : ConvertTarget
  exclude : Finset AssetId
  minReceive : UInt64
  maxSlippageBp : UInt32

/-- The default settings: off, into Bitcoin, from 0.0001 BTC, at most two percent below. -/
def AutoConvertSettings.default : AutoConvertSettings where
  enabled := false
  target := .nativeBtc
  exclude := ∅
  minReceive := 10000
  maxSlippageBp := 200

/-- Whether the settings leave an asset alone. -/
def AutoConvertSettings.keeps (s : AutoConvertSettings) (a : AssetId) : Bool :=
  s.target.isTargetAsset a || decide (a ∈ s.exclude)

structure RewardBatch where
  asset : AssetId
  inputs : List OutPoint
  value : UInt64
deriving DecidableEq

def RewardBatch.push (b : RewardBatch) (r : StakingReward) : RewardBatch :=
  { b with inputs := b.inputs ++ [r.outpoint], value := saturatingAdd64 b.value r.value }

/-- Whether a reward is left out of every batch. -/
def skips (s : AutoConvertSettings) (alreadyConverted : Finset OutPoint) (r : StakingReward) :
    Bool :=
  !r.convertible || decide (r.outpoint ∈ alreadyConverted) || s.keeps r.asset

variable (rewards : List StakingReward)

def byAsset (s : AutoConvertSettings)
    (alreadyConverted : Finset OutPoint) : HashMap AssetId RewardBatch :=
  (rewards.filter fun r => !skips s alreadyConverted r).foldl
    (fun m r => m.entry r.asset ⟨r.asset, [], 0⟩ (·.push r)) ∅

/-- `batches`, biggest first. The map iterates by asset, which the order of the listing makes
irrelevant. -/
def batches (s : AutoConvertSettings) (alreadyConverted : Finset OutPoint) : List RewardBatch :=
  (byAsset rewards s alreadyConverted).values.insertionSort fun a b =>
    b.value < a.value ∨ a.value = b.value ∧ a.asset.toNat ≤ b.asset.toNat

/-! ## What the batches hold -/

def kept (s : AutoConvertSettings) (alreadyConverted : Finset OutPoint) : List StakingReward :=
  rewards.filter fun r => !skips s alreadyConverted r

def batchOf (l : List StakingReward) (a : AssetId) : RewardBatch :=
  HashMap.groupOf (·.asset) (fun a => ⟨a, [], 0⟩) (fun r b => b.push r) l a

section Batches

variable (rewards : List StakingReward) (s : AutoConvertSettings)
  (alreadyConverted : Finset OutPoint)

theorem byAsset_eq_group : byAsset rewards s alreadyConverted =
    HashMap.group (·.asset) (fun a => ⟨a, [], 0⟩) (fun r b => b.push r)
      (kept rewards s alreadyConverted) := rfl

variable (l : List StakingReward)

theorem foldl_push (b : RewardBatch) : (l.foldl RewardBatch.push b).asset = b.asset ∧
      (l.foldl RewardBatch.push b).inputs = b.inputs ++ l.map (·.outpoint) := by
  induction l generalizing b with
  | nil => simp
  | cons r l ih =>
    rw [foldl_cons, (ih _).1, (ih _).2]
    simp [RewardBatch.push]

theorem foldl_push_value (b : RewardBatch) : (l.foldl RewardBatch.push b).value.toNat =
      min (b.value.toNat + (l.map fun r => r.value.toNat).sum) (2 ^ 64 - 1) := by
  induction l generalizing b with
  | nil =>
    have hfits : b.value.toNat < 2 ^ 64 := b.value.toNat_lt
    simp
    omega
  | cons r l ih =>
    rw [foldl_cons, ih, RewardBatch.push, map_cons, sum_cons, toNat_saturatingAdd64]
    omega

theorem batchOf_asset (a : AssetId) : (batchOf l a).asset = a :=
  (foldl_push _ _).1

theorem batchOf_inputs (a : AssetId) :
    (batchOf l a).inputs = (l.filter fun r => r.asset = a).map (·.outpoint) :=
  (foldl_push _ _).2.trans (nil_append _)

theorem batches_perm : (batches rewards s alreadyConverted).Perm
      ((byAsset rewards s alreadyConverted).keys.map
        (batchOf (kept rewards s alreadyConverted))) := by
  refine (perm_insertionSort _ _).trans ?_
  rw [byAsset_eq_group, HashMap.values_group]
  exact List.Perm.refl _

/-- **Partition.** The batches hold the outpoints of the rewards that are not skipped, each as
often as it comes. -/
theorem batches_inputs_perm : ((batches rewards s alreadyConverted).flatMap (·.inputs)).Perm
    ((kept rewards s alreadyConverted).map (·.outpoint)) := by
  refine ((batches_perm rewards s alreadyConverted).flatMap_right _).trans ?_
  rw [flatMap_map]
  simp only [batchOf_inputs, ← map_flatMap]
  refine (perm_flatMap_filter (fun r : StakingReward => r.asset) (AList.keys_nodup _) ?_).map _
  intro r hr
  rw [byAsset_eq_group, HashMap.mem_keys_group]
  exact ⟨r, hr, rfl⟩

variable {rewards s alreadyConverted}

theorem mem_batches {b : RewardBatch} (h : b ∈ batches rewards s alreadyConverted) :
    b = batchOf (kept rewards s alreadyConverted) b.asset := by
  obtain ⟨a, -, rfl⟩ := mem_map.1 ((batches_perm rewards s alreadyConverted).mem_iff.1 h)
  rw [batchOf_asset]

theorem exists_batch {r : StakingReward} (h : r ∈ kept rewards s alreadyConverted) :
    ∃ b ∈ batches rewards s alreadyConverted, b.asset = r.asset ∧ r.outpoint ∈ b.inputs := by
  refine ⟨batchOf (kept rewards s alreadyConverted) r.asset, ?_, batchOf_asset _ _, ?_⟩
  · rw [(batches_perm rewards s alreadyConverted).mem_iff, byAsset_eq_group]
    exact mem_map_of_mem ((HashMap.mem_keys_group _ _ _).2 ⟨r, h, rfl⟩)
  · rw [batchOf_inputs]
    exact mem_map_of_mem (mem_filter.2 ⟨h, decide_eq_true rfl⟩)

theorem of_mem_inputs {b : RewardBatch} {p : OutPoint}
    (h : b ∈ batches rewards s alreadyConverted) (hp : p ∈ b.inputs) :
    ∃ r ∈ kept rewards s alreadyConverted, r.outpoint = p ∧ r.asset = b.asset := by
  rw [mem_batches h, batchOf_inputs] at hp
  obtain ⟨r, hr, rfl⟩ := mem_map.1 hp
  obtain ⟨hkept, hasset⟩ := mem_filter.1 hr
  exact ⟨r, hkept, rfl, of_decide_eq_true hasset⟩

/-- The value of a batch is the sum of its rewards, capped at the largest `u64`. -/
theorem batch_value (hnodup : (rewards.map (·.outpoint)).Nodup) {b : RewardBatch}
    (h : b ∈ batches rewards s alreadyConverted) : b.value.toNat = min
      (((rewards.filter fun r => r.outpoint ∈ b.inputs).map fun r => r.value.toNat).sum)
      (2 ^ 64 - 1) := by
  have hrewards : (rewards.filter fun r => r.outpoint ∈ b.inputs) =
      (kept rewards s alreadyConverted).filter fun r => r.asset = b.asset := by
    rw [kept, filter_filter]
    refine filter_congr fun r hr => ?_
    rw [Bool.eq_iff_iff, Bool.and_eq_true, decide_eq_true_iff, decide_eq_true_iff]
    refine ⟨fun hp => ?_, fun hr' => ?_⟩
    · obtain ⟨r', hkept, hplace, hasset⟩ := of_mem_inputs h hp
      obtain ⟨hmem, hskip⟩ := mem_filter.1 hkept
      obtain rfl := inj_on_of_nodup_map hnodup hmem hr hplace
      exact ⟨hasset, hskip⟩
    · rw [mem_batches h, batchOf_inputs]
      exact mem_map_of_mem (mem_filter.2 ⟨mem_filter.2 ⟨hr, hr'.2⟩, decide_eq_true hr'.1⟩)
  rw [hrewards]
  conv_lhs => rw [mem_batches h]
  refine (foldl_push_value _ _).trans ?_
  rw [UInt64.toNat_zero, Nat.zero_add]

end Batches

/-! ## Attribution and batching, exactly -/

/-- The rewards are those of a list of transactions: one for each output that is a reward, in
different places, and no other. -/
structure Attributes (f : Attribution) (txs : List TxFacts) (rewards : List StakingReward) :
    Prop where
  once : (rewards.map (·.outpoint)).Nodup
  each : ∀ e ∈ owned txs, f.IsReward e → ∃ r ∈ rewards, Records e r
  only : ∀ r ∈ rewards, ∃ e ∈ owned txs, f.IsReward e ∧ Records e r

/-- A reward of the wallet can be sold: it is unspent and due, was not converted, and its asset is
neither the target nor excluded. -/
structure Sellable (f : Attribution) (s : AutoConvertSettings) (alreadyConverted : Finset OutPoint)
    (e : TxFacts × OwnedOutput) : Prop where
  isReward : f.IsReward e
  unspent : e.2.spent = false
  due : f.Due e.1
  fresh : outpointOf e ∉ alreadyConverted
  notTarget : s.target.isTargetAsset e.2.asset = false
  notExcluded : e.2.asset ∉ s.exclude

/-- The batches are those of a list of transactions: each reward that can be sold is in the batch
of its asset, no outpoint is in two places, nothing else is in a batch, and the value of a batch
is the sum of its rewards if that is a `u64`. -/
structure Batched (f : Attribution) (txs : List TxFacts) (s : AutoConvertSettings)
    (alreadyConverted : Finset OutPoint) (bs : List RewardBatch) : Prop where
  once : (bs.flatMap (·.inputs)).Nodup
  each : ∀ e ∈ owned txs, Sellable f s alreadyConverted e →
    ∃ b ∈ bs, b.asset = e.2.asset ∧ outpointOf e ∈ b.inputs
  only : ∀ b ∈ bs, ∀ p ∈ b.inputs, ∃ e ∈ owned txs, Sellable f s alreadyConverted e ∧
    p = outpointOf e ∧ b.asset = e.2.asset
  value : ∀ b ∈ bs, (((attributeRewards f txs).filter fun r => r.outpoint ∈ b.inputs).map
      fun r => r.value.toNat).sum < 2 ^ 64 →
    b.value.toNat = (((attributeRewards f txs).filter fun r => r.outpoint ∈ b.inputs).map
      fun r => r.value.toNat).sum

section Exact

variable {f : Attribution} {txs : List TxFacts}

variable {s : AutoConvertSettings} {alreadyConverted : Finset OutPoint} {e : TxFacts × OwnedOutput}
  {r : StakingReward}

theorem skips_eq_false_iff (h : f.found e = some r) :
    (!skips s alreadyConverted r) = true ↔
      e.2.spent = false ∧ (f.Due e.1 ∨ f.Early e.1) ∧ outpointOf e ∉ alreadyConverted ∧
        s.target.isTargetAsset e.2.asset = false ∧ e.2.asset ∉ s.exclude := by
  have hrec := (Attribution.found_spec h).1
  rw [← Attribution.mature_iff h, ← hrec.outpoint, ← hrec.asset, ← hrec.spent]
  simp only [skips, StakingReward.convertible, AutoConvertSettings.keeps, Bool.not_or,
    Bool.not_not, Bool.and_eq_true, Bool.not_eq_true', decide_eq_false_iff_not]
  tauto

theorem mem_kept_iff : r ∈ kept (attributeRewards f txs) s alreadyConverted ↔
      ∃ e ∈ owned txs, f.found e = some r ∧ e.2.spent = false ∧ (f.Due e.1 ∨ f.Early e.1) ∧
        outpointOf e ∉ alreadyConverted ∧ s.target.isTargetAsset e.2.asset = false ∧
          e.2.asset ∉ s.exclude := by
  rw [kept, mem_filter, mem_attributeRewards]
  refine ⟨?_, ?_⟩
  · rintro ⟨⟨e, he, hfound⟩, hskip⟩
    exact ⟨e, he, hfound, (skips_eq_false_iff hfound).1 hskip⟩
  · rintro ⟨e, he, hfound, hkept⟩
    exact ⟨⟨e, he, hfound⟩, (skips_eq_false_iff hfound).2 hkept⟩

variable (h : ((owned txs).map outpointOf).Nodup)

include h

theorem attributeRewards_attributes :
    Attributes f txs (attributeRewards f txs) where
  once := attributeRewards_nodup h
  each := by
    intro e he hreward
    obtain ⟨r, hr⟩ := Option.isSome_iff_exists.1 (Attribution.isSome_found.2 hreward)
    exact ⟨r, (mem_attributeRewards f txs).2 ⟨e, he, hr⟩, (Attribution.found_spec hr).1⟩
  only := by
    intro r hr
    obtain ⟨e, he, hfound⟩ := (mem_attributeRewards f txs).1 hr
    exact ⟨e, he, Attribution.isSome_found.1 (Option.isSome_iff_exists.2 ⟨r, hfound⟩),
      (Attribution.found_spec hfound).1⟩

theorem batches_batched
    (hearly : ∀ e ∈ owned txs, e.2.value ≠ 0 → e.2.spent = false → ¬ f.Early e.1)
    (s : AutoConvertSettings) (alreadyConverted : Finset OutPoint) :
    Batched f txs s alreadyConverted (batches (attributeRewards f txs) s alreadyConverted) where
  once := by
    refine (batches_inputs_perm _ _ _).nodup_iff.2 ?_
    exact (attributeRewards_nodup h).sublist (filter_sublist.map _)
  each := by
    intro e he hsell
    obtain ⟨r, hr⟩ := Option.isSome_iff_exists.1 (Attribution.isSome_found.2 hsell.isReward)
    have hrec := (Attribution.found_spec hr).1
    have hkept := mem_kept_iff.2 ⟨e, he, hr, hsell.unspent, .inl hsell.due, hsell.fresh,
      hsell.notTarget, hsell.notExcluded⟩
    obtain ⟨b, hb, hasset, hin⟩ := exists_batch hkept
    exact ⟨b, hb, hasset.trans hrec.asset, hrec.outpoint ▸ hin⟩
  only := by
    intro b hb p hp
    obtain ⟨r, hr, rfl, hasset⟩ := of_mem_inputs hb hp
    obtain ⟨e, he, hfound, hspent, hmature, hfresh, htarget, hexclude⟩ := mem_kept_iff.1 hr
    have hrec := (Attribution.found_spec hfound).1
    have hreward := Attribution.isSome_found.1 (Option.isSome_iff_exists.2 ⟨r, hfound⟩)
    have hdue := hmature.resolve_right (hearly e he hreward.1 hspent)
    exact ⟨e, he, ⟨hreward, hspent, hdue, hfresh, htarget, hexclude⟩, hrec.outpoint,
      hasset.symm.trans hrec.asset⟩
  value := by
    intro b hb hfits
    rw [batch_value (attributeRewards_nodup h) hb]
    omega

theorem not_early_of_batched
    (hbatched : Batched f txs .default ∅ (batches (attributeRewards f txs) .default ∅))
    (he : e ∈ owned txs) (hvalue : e.2.value ≠ 0) (hspent : e.2.spent = false) : ¬ f.Early e.1 := by
  intro hearly
  have hreward : f.IsReward e := ⟨hvalue, .inl hearly.1⟩
  obtain ⟨r, hr⟩ := Option.isSome_iff_exists.1 (Attribution.isSome_found.2 hreward)
  have hkept : r ∈ kept (attributeRewards f txs) .default ∅ :=
    mem_kept_iff.2 ⟨e, he, hr, hspent, .inr hearly, by simp, rfl, by
      simp [AutoConvertSettings.default]⟩
  obtain ⟨b, hb, -, hin⟩ := exists_batch hkept
  obtain ⟨e', he', hsell, hplace, -⟩ := hbatched.only b hb _ hin
  obtain rfl := inj_on_of_nodup_map h he' he
    (hplace.symm.trans (Attribution.found_spec hr).1.outpoint)
  obtain hfalse | ⟨height, hheight, hdeep⟩ := hsell.due
  · rw [hearly.1] at hfalse
    cases hfalse
  · obtain ⟨-, hmax, height', hheight', hdepth⟩ := hearly
    cases hheight.symm.trans hheight'
    omega

omit h

/-- **Attribution and batching.** For outputs in different places, the rewards are exactly those
of the transactions, in an order that does not depend on theirs, and the batches hold exactly the
rewards that can be sold, unless an unspent coinbase lies exactly as deep as the largest
maturity. -/
theorem rewards_exact_iff (f : Attribution) (txs : List TxFacts)
    (h : ((owned txs).map outpointOf).Nodup) : (Attributes f txs (attributeRewards f txs) ∧
      (∀ txs' : List TxFacts, txs'.Perm txs → attributeRewards f txs' = attributeRewards f txs) ∧
      ∀ s alreadyConverted, Batched f txs s alreadyConverted
          (batches (attributeRewards f txs) s alreadyConverted)) ↔
      ∀ e ∈ owned txs, e.2.value ≠ 0 → e.2.spent = false → ¬ f.Early e.1 := by
  refine ⟨?_, fun hearly => ?_⟩
  · rintro ⟨-, -, hbatched⟩ e he hvalue hspent
    exact not_early_of_batched h (hbatched .default ∅) he hvalue hspent
  · exact ⟨attributeRewards_attributes h, fun _ hperm => attributeRewards_eq_of_perm h hperm,
      batches_batched h hearly⟩

end Exact

namespace Sample

def longest : Attribution where
  stakingScripts := ∅
  signerRelation := ∅
  tipHeight := UInt32.ofNat (2 ^ 32 - 2)
  coinbaseMaturity := UInt32.ofNat (2 ^ 32 - 1)

def usual : Attribution := { longest with coinbaseMaturity := 100 }

def genesis : TxFacts where
  txid := 3
  height := some 0
  isCoinbase := true
  fromMe := false
  ownedOutputs := [⟨1, [], 7, 50, false⟩]

def second : TxFacts :=
  { genesis with
    txid := 4
    height := some 5
    ownedOutputs := [⟨0, [], 7, 20, true⟩, ⟨1, [], 8, 30, false⟩] }

end Sample

open Sample in
theorem rewards_exact_usual :
    Attributes usual [genesis, second] (attributeRewards usual [genesis, second]) ∧
    (∀ txs' : List TxFacts, txs'.Perm [genesis, second] →
      attributeRewards usual txs' = attributeRewards usual [genesis, second]) ∧
    ∀ s alreadyConverted, Batched usual [genesis, second] s alreadyConverted
      (batches (attributeRewards usual [genesis, second]) s alreadyConverted) := by
  refine (rewards_exact_iff usual [genesis, second] (by decide)).2 ?_
  intro e _ _ _ hearly
  exact absurd hearly.2.1 (by decide)

open Sample in
/-- The coinbase lies as deep as the maturity, not deeper, and is put up for sale. -/
theorem longest_maturity_sells_early :
    depth longest.tipHeight 0 = longest.coinbaseMaturity.toNat ∧ ¬ longest.Due genesis ∧
      batches (attributeRewards longest [genesis]) .default ∅ = [⟨7, [⟨3, 1⟩], 50⟩] ∧
      ¬ Batched longest [genesis] .default ∅
        (batches (attributeRewards longest [genesis]) .default ∅) := by
  have hdepth : depth longest.tipHeight 0 = longest.coinbaseMaturity.toNat := by decide
  have hdue : ¬ longest.Due genesis := by
    rintro (hcb | ⟨h, hh, hdeep⟩)
    · cases hcb
    · cases hh
      omega
  have hbatches : batches (attributeRewards longest [genesis]) .default ∅ =
      [⟨7, [⟨3, 1⟩], 50⟩] := by decide
  refine ⟨hdepth, hdue, hbatches, fun hbatched => ?_⟩
  rw [hbatches] at hbatched
  obtain ⟨e, he, hsell, -⟩ := hbatched.only _ mem_cons_self _ mem_cons_self
  have hgenesis : e = (genesis, ⟨1, [], 7, 50, false⟩) := mem_singleton.1 he
  subst hgenesis
  exact hdue hsell.due

/-! ## Decisions -/

structure Quote where
  receives : UInt64
  reference : UInt64
deriving DecidableEq

/-- `slippage_bp`: how far below the reference price a fill lands, in whole basis points. -/
def Quote.slippageBp (q : Quote) : UInt32 :=
  if q.reference = 0 ∨ q.reference ≤ q.receives then 0
  else
    let shortfall := (q.reference - q.receives).toNat
    UInt32.ofNat (min (shortfall * 10000 / q.reference.toNat) 10000)

/-- Whether a batch converts, and if not, why not. -/
inductive Decision
  | convert (receives : UInt64)
  | disabled
  | notConverted
  | noMarket
  | tooSmallToPrice
  | belowFloor (receives floor : UInt64)
  | slippageTooHigh (slippageBp capBp : UInt32)
deriving DecidableEq

/-- `decide`. -/
def decideBatch (batch : RewardBatch) (quote : Option Quote) (s : AutoConvertSettings) : Decision :=
  if !s.enabled then .disabled
  else if s.keeps batch.asset then .notConverted
  else
    match quote with
    | none => .noMarket
    | some q =>
      if q.receives = 0 then if 0 < q.reference then .tooSmallToPrice else .noMarket
      else if s.maxSlippageBp < q.slippageBp then
        .slippageTooHigh q.slippageBp s.maxSlippageBp
      else if q.receives < s.minReceive then .belowFloor q.receives s.minReceive
      else .convert q.receives

theorem Quote.slippageBp_le_iff (q : Quote) (cap : UInt32) :
    q.slippageBp ≤ cap ↔ (q.receives < q.reference →
      (q.reference.toNat - q.receives.toNat) * 10000 < (cap.toNat + 1) * q.reference.toNat) := by
  unfold slippageBp
  by_cases h : q.reference = 0 ∨ q.reference ≤ q.receives
  · have hnot : ¬ q.receives < q.reference := by
      rcases h with h | h
      · simp [h]
      · exact UInt64.not_lt.2 h
    simp [h, hnot]
  · obtain ⟨hzero, hlt⟩ := not_or.1 h
    have hless : q.receives < q.reference := UInt64.not_le.1 hlt
    have hsub : (q.reference - q.receives).toNat = q.reference.toNat - q.receives.toNat :=
      UInt64.toNat_sub_of_le _ _ (UInt64.le_of_lt hless)
    have hpos : 0 < q.reference.toNat := Nat.zero_lt_of_lt (UInt64.lt_iff_toNat_lt.1 hless)
    -- a shortfall is no more than the whole, so the cap of 10000 never acts
    have hcap : (q.reference.toNat - q.receives.toNat) * 10000 / q.reference.toNat ≤ 10000 := by
      refine Nat.div_le_of_le_mul ?_
      exact Nat.mul_le_mul_right _ (Nat.sub_le _ _)
    rw [if_neg h, UInt32.le_iff_toNat_le]
    simp only [hsub, Nat.min_eq_left hcap, UInt32.toNat_ofNat']
    rw [Nat.mod_eq_of_lt (by omega), ← Nat.lt_succ_iff, Nat.div_lt_iff_lt_mul hpos]
    simp [hless]

/-- **Decisions.** A batch is sold exactly if conversion is on, the asset is neither the target
nor excluded, and the quote is positive, at least the floor, and less than one basis point more
below its reference than the settings allow. Without a reference there is nothing to be below. -/
theorem decideBatch_convert_iff (batch : RewardBatch) (quote : Option Quote)
    (s : AutoConvertSettings) (n : UInt64) : decideBatch batch quote s = .convert n ↔
      s.enabled = true ∧ s.target.isTargetAsset batch.asset = false ∧ batch.asset ∉ s.exclude ∧
        ∃ q, quote = some q ∧ n = q.receives ∧ 0 < q.receives ∧ s.minReceive ≤ q.receives ∧
          (q.receives < q.reference → (q.reference.toNat - q.receives.toNat) * 10000 <
              (s.maxSlippageBp.toNat + 1) * q.reference.toNat) := by
  simp only [← Quote.slippageBp_le_iff]
  unfold decideBatch AutoConvertSettings.keeps
  cases henabled : s.enabled with
  | false => simp
  | true =>
    cases htarget : s.target.isTargetAsset batch.asset with
    | true => simp
    | false =>
      by_cases hexclude : batch.asset ∈ s.exclude
      · simp [hexclude]
      · cases quote with
        | none => simp [hexclude]
        | some q =>
          by_cases hzero : q.receives = 0
          · by_cases href : 0 < q.reference <;> simp [hexclude, hzero, href]
          · have hpos : 0 < q.receives := UInt64.pos_iff_ne_zero.2 hzero
            by_cases hslip : s.maxSlippageBp < q.slippageBp
            · simp [hexclude, hzero, hslip, UInt32.not_le.2 hslip]
            · have hslip' : q.slippageBp ≤ s.maxSlippageBp := UInt32.not_lt.1 hslip
              by_cases hfloor : q.receives < s.minReceive
              · simp [hexclude, hzero, hslip, hfloor, UInt64.not_le.2 hfloor]
              · have hfloor' : s.minReceive ≤ q.receives := UInt64.not_lt.1 hfloor
                simp [hexclude, hzero, hslip, hfloor, hslip', hfloor', hpos, eq_comm]

/-- A fill 200.33 basis points below its reference converts under a cap of 200, and so does one
with no reference at all. -/
theorem convert_above_exact_cap : decideBatch ⟨7, [⟨3, 1⟩], 50⟩ (some ⟨29399, 30000⟩)
        { AutoConvertSettings.default with enabled := true } = .convert 29399 ∧
      200 * 30000 < (30000 - 29399) * 10000 ∧
      decideBatch ⟨7, [⟨3, 1⟩], 50⟩ (some ⟨20000, 0⟩)
        { AutoConvertSettings.default with enabled := true } = .convert 20000 := by
  decide

end Staking

end Swk
