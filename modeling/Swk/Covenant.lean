import Swk.HashMap
import Swk.RawTransaction
import Swk.StateExcept
import Mathlib.Algebra.BigOperators.Group.List.Basic
import Mathlib.Data.List.Sort

/-!
# Filling a covenant order

`build_covenant_fill_tx` assembles the transaction with which a taker fills a resting order: the
covenant's coin of asset A goes in without a signature, the taker's coins pay the maker and the fee,
and the covenant's script looks at the first two outputs only, so their order matters. All amounts
are explicit.

The builder gives change of every asset the taker puts in. Whether the taker puts in any of the
asset that the maker is paid in, or of the fee's, it does not ask: the transaction balances if and
only if they do.
-/

namespace Swk

open List

/-! ## The plan -/

/-- The covenant's coin, and the witness that fills it. -/
structure CovenantInput where
  txid : String
  vout : Nat
  asset : AssetId
  locked : UInt64
  fillLeaf : List UInt8
  controlBlock : List UInt8

structure FillCredit where
  asset : AssetId
  program : List UInt8
  version : UInt8
  value : UInt64

/-- What stays in the covenant on a partial fill. -/
structure FillRemainder where
  asset : AssetId
  value : UInt64
  spk : List UInt8

structure TakerFundingInput where
  txid : String
  vout : Nat
  value : UInt64
  asset : AssetId
  spk : List UInt8
  secretKey : SecretKey

structure CovenantFillPlan where
  covenant : CovenantInput
  credit : FillCredit
  remainder : Option FillRemainder
  takerInputs : List TakerFundingInput
  receiptAddr : Address
  changeAddr : Address
  feeAtoms : UInt64
  feeAsset : AssetId

/-! ## Pieces of the transaction -/

def explicitOut (asset : AssetId) (value : UInt64) (spk : Script) : TxOut :=
  ⟨.explicit asset, .explicit value, .null, spk, none⟩

def TxOut.newFee (amount : UInt64) (asset : AssetId) : TxOut := explicitOut asset amount []

def witnessProgramSpk (version : UInt8) (program : List UInt8) : Except Error Script :=
  if 16 < version then
    .error (.generic ("witness version " ++ toString version ++ " out of range (0..=16)"))
  else if program.length < 2 || 40 < program.length then
    .error (.generic ("witness program must be 2..=40 bytes, got " ++ toString program.length))
  else
    .ok ((if version = 0 then 0x00 else 0x50 + version) :: .ofNat program.length :: program)

def p2wpkhScriptCode (pkh : List UInt8) : Script := [0x76, 0xa9, 0x14] ++ pkh ++ [0x88, 0xac]

def p2wpkhSpk (pkh : List UInt8) : List UInt8 := [0x00, 0x14] ++ pkh

def unsignedInput (previousOutput : OutPoint) (sequence : UInt32) : RawTxIn :=
  ⟨previousOutput, [], sequence, []⟩

variable (s : Signing TxOut) {m m' : HashMap AssetId UInt64}

/-- A txid from text, or an error that says what it is for. -/
def parseTxid (what txid : String) : Except Error Txid :=
  match s.txidFromStr txid with
  | .ok id => .ok id
  | .error e => .error (.generic ("invalid " ++ what ++ " txid " ++ txid ++ ": " ++ e))

/-! ## Funding -/

def TakerFundingInput.name (ti : TakerFundingInput) : String := ti.txid ++ ":" ++ toString ti.vout

/-- Add the coin of a taker to the funds of its asset. Only `p2wpkh` coins are taken. -/
def fund (funded : HashMap AssetId UInt64) (ti : TakerFundingInput) :
    Except Error (HashMap AssetId UInt64) :=
  if ti.spk.length ≠ 22 ∨ ti.spk[0]? ≠ some 0x00 ∨ ti.spk[1]? ≠ some 0x14 then
    .error (.generic ("taker funding input " ++ ti.name ++ " is not p2wpkh (spk " ++
      toHex ti.spk ++ ")"))
  else
    match checkedAdd ((funded.lookup ti.asset).getD 0) ti.value with
    | some total => .ok (funded.insert ti.asset total)
    | none => .error (.generic "taker funding overflow")

/-- Add to what the fixed outputs take of an asset. -/
def consume (consumed : HashMap AssetId UInt64) (asset : AssetId) (value : UInt64) (what : String) :
    Except Error (HashMap AssetId UInt64) :=
  match checkedAdd ((consumed.lookup asset).getD 0) value with
  | some total => .ok (consumed.insert asset total)
  | none => .error (.generic (what ++ " value overflow"))

/-- The entries of a `BTreeMap`, by ascending key. -/
def inOrder (m : HashMap AssetId UInt64) : List (AssetId × UInt64) :=
  m.toPairs.insertionSort fun a b => a.1.toNat ≤ b.1.toNat

/-- The change of one funded asset. Change of the credit's asset is kept apart. -/
def addChangeOut (plan : CovenantFillPlan) (consumed : HashMap AssetId UInt64)
    (changes : Option TxOut × List TxOut) (e : AssetId × UInt64) :
    Except Error (Option TxOut × List TxOut) :=
  let used := (consumed.lookup e.1).getD 0
  match checkedSub e.2 used with
  | none => .error (.generic ("taker funding of " ++ s.assetText e.1 ++ " (" ++ toString e.2 ++
      ") is below the " ++ toString used ++ " it must cover"))
  | some change =>
    if 0 < change then
      let out := explicitOut e.1 change plan.changeAddr.scriptPubkey
      if e.1 = plan.credit.asset then .ok (some out, changes.2)
      else .ok (changes.1, changes.2 ++ [out])
    else .ok changes

/-- The outputs in the order the covenant asks for: the credit, then the remainder or, on a full
fill, an output of another asset. -/
def orderOutputs (plan : CovenantFillPlan) (creditOut receiptOut feeOut : TxOut)
    (bChange : Option TxOut) (otherChanges : List TxOut) : Except Error (List TxOut) :=
  match plan.remainder with
  | some rem =>
    if rem.asset ≠ plan.covenant.asset then
      .error (.generic "remainder asset must equal the covenant's sold asset A")
    else
      .ok (creditOut :: explicitOut rem.asset rem.value rem.spk :: receiptOut ::
        (bChange.toList ++ otherChanges ++ [feeOut]))
  | none =>
    match bChange, otherChanges with
    | some bc, _ => .ok (creditOut :: bc :: receiptOut :: (otherChanges ++ [feeOut]))
    | none, first :: rest => .ok (creditOut :: first :: receiptOut :: (rest ++ [feeOut]))
    | none, [] =>
      if plan.feeAsset ≠ plan.covenant.asset then .ok [creditOut, feeOut, receiptOut]
      else .error (.generic ("full fill has no non-asset-A output to occupy the remainder " ++
        "slot (output 1); pick a fee asset that is not the covenant's sold asset, or leave " ++
        "change"))

/-! ## The transaction -/

def fillInputs (plan : CovenantFillPlan) : Except Error (List RawTxIn) := do
  let covTxid ← parseTxid s "covenant" plan.covenant.txid
  let takers ← plan.takerInputs.mapM fun ti => do
    let txid ← parseTxid s "taker input" ti.txid
    pure (unsignedInput ⟨txid, ti.vout⟩ 0xffffffff)
  pure (unsignedInput ⟨covTxid, plan.covenant.vout⟩ 0xffffffff :: takers)

def fillOutputs (plan : CovenantFillPlan) : Except Error (List TxOut) := do
  let funded ← plan.takerInputs.foldlM fund ∅
  let credited ← consume ∅ plan.credit.asset plan.credit.value "credit"
  let consumed ← consume credited plan.feeAsset plan.feeAtoms "fee"
  if (funded.lookup plan.covenant.asset).isSome then
    throw (.generic ("taker must not fund the covenant's sold asset (asset A comes from the " ++
      "covenant input)"))
  else
    let creditSpk ← witnessProgramSpk plan.credit.version plan.credit.program
    match checkedSub plan.covenant.locked ((plan.remainder.map (·.value)).getD 0) with
    | none => throw (.generic "remainder exceeds locked value")
    | some filled =>
      if filled = 0 then throw (.generic "filled amount is zero")
      else
        let changes ← (inOrder funded).foldlM (addChangeOut s plan consumed) (none, [])
        orderOutputs plan (explicitOut plan.credit.asset plan.credit.value creditSpk)
          (explicitOut plan.covenant.asset filled plan.receiptAddr.scriptPubkey)
          (.newFee plan.feeAtoms plan.feeAsset) changes.1 changes.2

def RawTransaction.setWitness {Out : Type} (tx : RawTransaction Out) (index : Nat)
    (witness : List (List UInt8)) : RawTransaction Out :=
  { tx with input := tx.input.modify index fun i => { i with scriptWitness := witness } }

def signP2wpkh (what : String) (tx : RawTransaction TxOut) (e : TakerFundingInput × Nat) :
    Except Error (RawTransaction TxOut) :=
  let compressed := s.publicKey e.1.secretKey
  let pkh := s.hash160 compressed
  if p2wpkhSpk pkh ≠ e.1.spk then
    .error (.generic (what ++ " input " ++ e.1.name ++
      " p2wpkh(key) != its scriptPubKey — wrong derivation"))
  else
    let sighash := s.segwitv0Sighash tx (1 + e.2) (p2wpkhScriptCode pkh) e.1.value
    .ok (tx.setWitness (1 + e.2)
      [s.signEcdsa sighash e.1.secretKey ++ [sighashAllByte], compressed])

/-- `build_covenant_fill_tx`: the transaction that is serialised. -/
def buildCovenantFillTx (plan : CovenantFillPlan) : Except Error (RawTransaction TxOut) := do
  let inputs ← fillInputs s plan
  let outputs ← fillOutputs s plan
  let tx : RawTransaction TxOut := ⟨2, 0, inputs, outputs⟩
  plan.takerInputs.zipIdx.foldlM (signP2wpkh s "taker")
    (tx.setWitness 0 [plan.covenant.fillLeaf, plan.covenant.controlBlock])

/-! ## Totals -/

def totalOf (m : HashMap AssetId UInt64) (a : AssetId) : Nat := ((m.lookup a).getD 0).toNat

@[simp] theorem totalOf_empty (a : AssetId) : totalOf ∅ a = 0 := rfl

variable {asset : AssetId} {value : UInt64} {l : List TakerFundingInput}

theorem totalOf_insert {total : UInt64}
    (h : checkedAdd ((m.lookup asset).getD 0) value = some total) (a : AssetId) :
    totalOf (m.insert asset total) a = totalOf m a + if asset = a then value.toNat else 0 := by
  unfold totalOf
  by_cases ha : asset = a
  · subst ha
    rw [AList.lookup_insert, Option.getD_some, checkedAdd_eq_some h, if_pos rfl]
  · rw [AList.lookup_insert_ne (Ne.symm ha), if_neg ha, Nat.add_zero]

theorem consume_ok {what : String} (h : consume m asset value what = .ok m') (a : AssetId) :
    totalOf m' a = totalOf m a + if asset = a then value.toNat else 0 := by
  unfold consume at h
  cases hadd : checkedAdd ((m.lookup asset).getD 0) value with
  | none => simp [hadd] at h
  | some total =>
    simp only [hadd, Except.ok.injEq] at h
    rw [← h]
    exact totalOf_insert hadd a

theorem fund_ok {ti : TakerFundingInput} (h : fund m ti = .ok m') (a : AssetId) :
    totalOf m' a = totalOf m a + (if ti.asset = a then ti.value.toNat else 0) ∧
      (a ∈ m' ↔ a ∈ m ∨ ti.asset = a) := by
  unfold fund at h
  split at h
  · cases h
  · cases hadd : checkedAdd ((m.lookup ti.asset).getD 0) ti.value with
    | none => simp [hadd] at h
    | some total =>
      simp only [hadd, Except.ok.injEq] at h
      rw [← h, AList.mem_insert]
      exact ⟨totalOf_insert hadd a, by tauto⟩

def fundsOf (l : List TakerFundingInput) (a : AssetId) : Nat :=
  (l.map fun ti => if ti.asset = a then ti.value.toNat else 0).sum

theorem foldlM_funds
    {step : HashMap AssetId UInt64 → TakerFundingInput → Except Error (HashMap AssetId UInt64)}
    (hstep : ∀ m ti m', step m ti = .ok m' → ∀ a,
      totalOf m' a = totalOf m a + (if ti.asset = a then ti.value.toNat else 0) ∧
        (a ∈ m' ↔ a ∈ m ∨ ti.asset = a))
    (h : l.foldlM step m = .ok m') (a : AssetId) :
    totalOf m' a = totalOf m a + fundsOf l a ∧ (a ∈ m' ↔ a ∈ m ∨ ∃ ti ∈ l, ti.asset = a) := by
  induction l generalizing m with
  | nil =>
    cases h
    simp [fundsOf]
  | cons ti l ih =>
    rw [foldlM_cons] at h
    obtain ⟨m₁, hfund, h⟩ := except_bind_ok_iff.1 h
    obtain ⟨htotal₁, hmem₁⟩ := hstep m ti m₁ hfund a
    obtain ⟨htotal, hmem⟩ := ih h
    constructor
    · rw [htotal, htotal₁, fundsOf, fundsOf, map_cons, sum_cons, Nat.add_assoc]
    · rw [hmem, hmem₁, or_assoc]
      simp

theorem funded_ok (h : l.foldlM fund m = .ok m') (a : AssetId) :
    totalOf m' a = totalOf m a + fundsOf l a ∧ (a ∈ m' ↔ a ∈ m ∨ ∃ ti ∈ l, ti.asset = a) :=
  foldlM_funds (fun _ _ _ hfund => fund_ok hfund) h a

/-! ## Change -/

def TxOut.paysOf (o : TxOut) (a : AssetId) : Nat :=
  match o.asset, o.value with
  | .explicit asset, .explicit value => if asset = a then value.toNat else 0
  | _, _ => 0

def paysOf (l : List TxOut) (a : AssetId) : Nat := (l.map (·.paysOf a)).sum

@[simp] theorem paysOf_nil (a : AssetId) : paysOf [] a = 0 := rfl

@[simp] theorem paysOf_cons (o : TxOut) (l : List TxOut) (a : AssetId) :
    paysOf (o :: l) a = o.paysOf a + paysOf l a := rfl

@[simp] theorem paysOf_append (l l' : List TxOut) (a : AssetId) :
    paysOf (l ++ l') a = paysOf l a + paysOf l' a := by
  simp [paysOf]

@[simp] theorem explicitOut_paysOf (asset : AssetId) (value : UInt64) (spk : Script)
    (a : AssetId) : (explicitOut asset value spk).paysOf a = if asset = a then value.toNat else 0 :=
  rfl

theorem paysOf_perm {l l' : List TxOut} (h : l.Perm l') (a : AssetId) : paysOf l a = paysOf l' a :=
  (h.map _).sum_eq

/-- The change of a funded asset of which some is used, if there is any. -/
def changeOf (spk : Script) (used : AssetId → UInt64) (e : AssetId × UInt64) : Option TxOut :=
  if 0 < e.2 - used e.1 then some (explicitOut e.1 (e.2 - used e.1) spk) else none

section ChangeOf

variable {spk : Script} {used : AssetId → UInt64}

theorem changeOf_eq_some {e : AssetId × UInt64} {o : TxOut} (h : changeOf spk used e = some o) :
    ∃ value, o = explicitOut e.1 value spk := by
  unfold changeOf at h
  split at h
  · cases h
    exact ⟨_, rfl⟩
  · cases h

theorem filterMap_changeOf_cons (e : AssetId × UInt64) (l : List (AssetId × UInt64)) :
    (e :: l).filterMap (changeOf spk used) =
      (changeOf spk used e).toList ++ l.filterMap (changeOf spk used) := by
  rw [filterMap_cons]
  cases changeOf spk used e <;> rfl

theorem changeOf_paysOf (e : AssetId × UInt64) (a : AssetId) :
    paysOf (changeOf spk used e).toList a = if e.1 = a then (e.2 - used e.1).toNat else 0 := by
  unfold changeOf
  by_cases hpos : 0 < e.2 - used e.1
  · simp [hpos]
  · rw [if_neg hpos, Option.toList_none, paysOf_nil]
    rw [UInt64.not_lt, UInt64.le_iff_toNat_le, UInt64.toNat_zero] at hpos
    split <;> omega

theorem paysOf_changes_of_not_mem {l : List (AssetId × UInt64)} {a : AssetId}
    (ha : a ∉ l.map (·.1)) : paysOf (l.filterMap (changeOf spk used)) a = 0 := by
  induction l with
  | nil => rfl
  | cons e l ih =>
    rw [map_cons, mem_cons, not_or] at ha
    rw [filterMap_changeOf_cons, paysOf_append, changeOf_paysOf, if_neg (Ne.symm ha.1), ih ha.2]

theorem paysOf_changes_of_mem {l : List (AssetId × UInt64)} {a : AssetId} {v : UInt64}
    (hnodup : (l.map (·.1)).Nodup) (ha : (a, v) ∈ l) :
    paysOf (l.filterMap (changeOf spk used)) a = (v - used a).toNat := by
  induction l with
  | nil => cases ha
  | cons e l ih =>
    rw [map_cons, nodup_cons] at hnodup
    rw [filterMap_changeOf_cons, paysOf_append, changeOf_paysOf]
    rcases mem_cons.1 ha with rfl | ha
    · rw [if_pos rfl, paysOf_changes_of_not_mem hnodup.1, Nat.add_zero]
    · have hne : e.1 ≠ a := fun heq => hnodup.1 (heq ▸ mem_map_of_mem ha)
      rw [if_neg hne, Nat.zero_add, ih hnodup.2 ha]

theorem inOrder_perm (m : HashMap AssetId UInt64) : (inOrder m).Perm m.toPairs :=
  perm_insertionSort _ _

theorem inOrder_nodup (m : HashMap AssetId UInt64) : ((inOrder m).map (·.1)).Nodup :=
  ((inOrder_perm m).map _).nodup_iff.2 m.toPairs_keys_nodup

theorem mem_inOrder {m : HashMap AssetId UInt64} {a : AssetId} {v : UInt64} :
    (a, v) ∈ inOrder m ↔ m.lookup a = some v :=
  (inOrder_perm m).mem_iff.trans HashMap.mem_toPairs

/-- **Change, over all assets**: what an asset was funded with, less what is used of it, and nothing
of an asset that was not funded. -/
theorem changes_paysOf (spk : Script) {funded : HashMap AssetId UInt64}
    (hcovers : ∀ e ∈ inOrder funded, used e.1 ≤ e.2) (a : AssetId) :
    (a ∈ funded → paysOf ((inOrder funded).filterMap (changeOf spk used)) a + (used a).toNat =
      totalOf funded a) ∧
    (a ∉ funded → paysOf ((inOrder funded).filterMap (changeOf spk used)) a = 0) := by
  constructor
  · intro ha
    obtain ⟨v, hv⟩ := HashMap.mem_iff.1 ha
    have hmem := mem_inOrder.2 hv
    have hle : used a ≤ v := hcovers _ hmem
    rw [paysOf_changes_of_mem (inOrder_nodup funded) hmem, UInt64.toNat_sub_of_le _ _ hle, totalOf,
      hv, Option.getD_some]
    exact Nat.sub_add_cancel (UInt64.le_iff_toNat_le.1 hle)
  · intro ha
    refine paysOf_changes_of_not_mem fun hmem => ?_
    obtain ⟨⟨k, v⟩, he, rfl⟩ := mem_map.1 hmem
    exact ha (HashMap.mem_iff.2 ⟨v, mem_inOrder.1 he⟩)

end ChangeOf

/-- The change of one funded asset, if there is any. -/
def changeOut (plan : CovenantFillPlan) (consumed : HashMap AssetId UInt64)
    (e : AssetId × UInt64) : Option TxOut :=
  changeOf plan.changeAddr.scriptPubkey (fun a => (consumed.lookup a).getD 0) e

theorem changeOut_eq (plan : CovenantFillPlan) (consumed : HashMap AssetId UInt64) :
    changeOut plan consumed =
      changeOf plan.changeAddr.scriptPubkey fun a => (consumed.lookup a).getD 0 := rfl

section Change

variable {s : Signing TxOut} {plan : CovenantFillPlan} {consumed : HashMap AssetId UInt64}

variable {changes : Option TxOut × List TxOut}

variable {changes' : Option TxOut × List TxOut} {funded : HashMap AssetId UInt64}

theorem addChangeOut_ok {e : AssetId × UInt64}
    (h : addChangeOut s plan consumed changes e = .ok changes') :
    (consumed.lookup e.1).getD 0 ≤ e.2 ∧
      (changes'.1 = if e.1 = plan.credit.asset then (changeOut plan consumed e).or changes.1
        else changes.1) ∧
      (changes'.2 = changes.2 ++ if e.1 = plan.credit.asset then []
        else (changeOut plan consumed e).toList) := by
  unfold addChangeOut checkedSub at h
  unfold changeOut changeOf
  dsimp only at h ⊢
  by_cases hcovers : (consumed.lookup e.1).getD 0 ≤ e.2
  · refine ⟨hcovers, ?_⟩
    rw [if_pos hcovers] at h
    dsimp only at h
    by_cases hpos : 0 < e.2 - (consumed.lookup e.1).getD 0
    · rw [if_pos hpos] at h ⊢
      by_cases hcredit : e.1 = plan.credit.asset
      · rw [if_pos hcredit] at h ⊢
        cases h
        simp [hcredit]
      · rw [if_neg hcredit] at h ⊢
        cases h
        simp [hcredit]
    · rw [if_neg hpos] at h ⊢
      cases h
      simp
  · rw [if_neg hcovers] at h
    cases h

theorem addChangeOuts_ok {l : List (AssetId × UInt64)} (hnodup : (l.map (·.1)).Nodup)
    (hfirst : plan.credit.asset ∈ l.map (·.1) → changes.1 = none)
    (h : l.foldlM (addChangeOut s plan consumed) changes = .ok changes') :
    (∀ e ∈ l, (consumed.lookup e.1).getD 0 ≤ e.2) ∧ (changes'.1.toList ++ changes'.2).Perm
        (changes.1.toList ++ changes.2 ++ l.filterMap (changeOut plan consumed)) := by
  induction l generalizing changes with
  | nil =>
    cases h
    simp
  | cons e l ih =>
    rw [foldlM_cons] at h
    obtain ⟨changes₁, hadd, h⟩ := except_bind_ok_iff.1 h
    obtain ⟨hcovers, hcredit₁, hothers₁⟩ := addChangeOut_ok hadd
    rw [map_cons, nodup_cons] at hnodup
    by_cases hcredit : e.1 = plan.credit.asset
    · -- The credit's asset comes once, so nothing is overwritten here or later.
      have hnone : changes.1 = none := hfirst (by simp [hcredit])
      rw [if_pos hcredit, hnone, Option.or_none] at hcredit₁
      rw [if_pos hcredit, append_nil] at hothers₁
      have hlater : plan.credit.asset ∉ l.map (·.1) := hcredit ▸ hnodup.1
      obtain ⟨hall, hperm⟩ := ih hnodup.2 (fun hmem => absurd hmem hlater) h
      refine ⟨forall_mem_cons.2 ⟨hcovers, hall⟩, hperm.trans ?_⟩
      rw [changeOut_eq, filterMap_changeOf_cons, ← changeOut_eq, hcredit₁, hothers₁, hnone,
        Option.toList_none, nil_append, ← append_assoc]
      exact perm_append_comm.append_right _
    · rw [if_neg hcredit] at hcredit₁ hothers₁
      have hfirst₁ : plan.credit.asset ∈ l.map (·.1) → changes₁.1 = none := by
        intro hmem
        rw [hcredit₁]
        exact hfirst (by simp [hmem])
      obtain ⟨hall, hperm⟩ := ih hnodup.2 hfirst₁ h
      refine ⟨forall_mem_cons.2 ⟨hcovers, hall⟩, hperm.trans (.of_eq ?_)⟩
      rw [changeOut_eq, filterMap_changeOf_cons, ← changeOut_eq, hcredit₁, hothers₁]
      simp only [append_assoc]

theorem changes_ok
    (h : (inOrder funded).foldlM (addChangeOut s plan consumed) (none, []) = .ok changes)
    (a : AssetId) : (a ∈ funded → paysOf (changes.1.toList ++ changes.2) a + totalOf consumed a =
      totalOf funded a) ∧
    (a ∉ funded → paysOf (changes.1.toList ++ changes.2) a = 0) := by
  obtain ⟨hcovers, hperm⟩ := addChangeOuts_ok (inOrder_nodup funded) (fun _ => rfl) h
  rw [paysOf_perm hperm, Option.toList_none, append_nil, nil_append, changeOut_eq]
  exact changes_paysOf plan.changeAddr.scriptPubkey hcovers a

theorem mem_changes
    (h : (inOrder funded).foldlM (addChangeOut s plan consumed) (none, []) = .ok changes) :
    ∀ o ∈ changes.1.toList ++ changes.2, ∃ asset ∈ funded, ∃ value,
      o = explicitOut asset value plan.changeAddr.scriptPubkey := by
  obtain ⟨-, hperm⟩ := addChangeOuts_ok (inOrder_nodup funded) (fun _ => rfl) h
  intro o ho
  have hmem := hperm.mem_iff.1 ho
  rw [Option.toList_none, append_nil, nil_append, changeOut_eq, mem_filterMap] at hmem
  obtain ⟨e, he, hout⟩ := hmem
  obtain ⟨value, rfl⟩ := changeOf_eq_some hout
  exact ⟨e.1, HashMap.mem_iff.2 ⟨e.2, mem_inOrder.1 he⟩, value, rfl⟩

end Change

/-! ## What a fill should be -/

namespace CovenantFillPlan

/-- What goes in of an asset: the covenant's coin and the taker's. -/
def comesIn (plan : CovenantFillPlan) (a : AssetId) : Nat :=
  (if plan.covenant.asset = a then plan.covenant.locked.toNat else 0) + fundsOf plan.takerInputs a

def kept (plan : CovenantFillPlan) : Nat :=
  UInt64.toNat ((plan.remainder.map FillRemainder.value).getD 0)

def remainderOut (plan : CovenantFillPlan) : Option TxOut :=
  plan.remainder.map fun rem => explicitOut plan.covenant.asset rem.value rem.spk

/-- What the covenant finds in its second slot: the remainder, or on a full fill an explicit output
of another asset. -/
def RightSlot (plan : CovenantFillPlan) (outputs : List TxOut) : Prop :=
  match plan.remainderOut with
  | some o => outputs[1]? = some o
  | none => ∃ asset value spk, asset ≠ plan.covenant.asset ∧
      outputs[1]? = some (explicitOut asset value spk)

/-- **A fill in order**: every asset balances, the credit is paid first, the second slot is right,
and what is neither credit, remainder nor fee goes to the taker, with as much of asset A as the
covenant lets go. -/
structure InOrder (plan : CovenantFillPlan) (outputs : List TxOut) : Prop where
  balance : ∀ a, plan.comesIn a = paysOf outputs a
  credit : ∃ spk, witnessProgramSpk plan.credit.version plan.credit.program = .ok spk ∧
    outputs[0]? = some (explicitOut plan.credit.asset plan.credit.value spk)
  slot : plan.RightSlot outputs
  taker : ∃ credit fee own, outputs.Perm (credit :: plan.remainderOut.toList ++ own ++ [fee]) ∧
    outputs[0]? = some credit ∧ fee = .newFee plan.feeAtoms plan.feeAsset ∧
    (∀ o ∈ own, o.scriptPubkey = plan.receiptAddr.scriptPubkey ∨
      o.scriptPubkey = plan.changeAddr.scriptPubkey) ∧
    plan.kept + paysOf own plan.covenant.asset = plan.covenant.locked.toNat

/-- The taker puts in some of every asset that they pay. -/
def FundsOutputs (plan : CovenantFillPlan) : Prop :=
  ∀ a, (∀ ti ∈ plan.takerInputs, ti.asset ≠ a) →
    (plan.credit.asset = a → plan.credit.value = 0) ∧ (plan.feeAsset = a → plan.feeAtoms = 0)

end CovenantFillPlan

section Fill

variable {s : Signing TxOut} {plan : CovenantFillPlan} {outputs : List TxOut}

theorem orderOutputs_ok {credit receipt fee : TxOut} {bChange : Option TxOut} {others : List TxOut}
    (h : orderOutputs plan credit receipt fee bChange others = .ok outputs) :
    outputs[0]? = some credit ∧
      outputs.Perm (credit :: plan.remainderOut.toList ++ (receipt :: (bChange.toList ++ others)) ++
        [fee]) ∧
      match plan.remainderOut with
      | some o => outputs[1]? = some o
      | none => ∃ o, outputs[1]? = some o ∧
          (o ∈ bChange.toList ++ others ∨ o = fee ∧ plan.feeAsset ≠ plan.covenant.asset) := by
  unfold orderOutputs at h
  unfold CovenantFillPlan.remainderOut
  cases hrem : plan.remainder with
  | some rem =>
    simp only [hrem] at h
    split at h
    · cases h
    · rename_i hasset
      rw [not_not] at hasset
      cases h
      rw [hasset]
      simp
  | none =>
    simp only [hrem] at h
    split at h
    iterate 2
      · cases h
        refine ⟨rfl, ?_, _, rfl, .inl (by simp)⟩
        simpa using List.Perm.swap ..
    · split at h
      · rename_i hfee
        cases h
        refine ⟨rfl, ?_, _, rfl, .inr ⟨rfl, hfee⟩⟩
        simpa using List.Perm.swap ..
      · cases h

theorem fillOutputs_ok (h : fillOutputs s plan = .ok outputs) :
    ∃ funded consumed credit filled, ∃ changes : Option TxOut × List TxOut,
      plan.takerInputs.foldlM fund ∅ = .ok funded ∧
      (∀ a, totalOf consumed a = (if plan.credit.asset = a then plan.credit.value.toNat else 0) +
        if plan.feeAsset = a then plan.feeAtoms.toNat else 0) ∧
      plan.covenant.asset ∉ funded ∧
      witnessProgramSpk plan.credit.version plan.credit.program = .ok credit ∧
      filled.toNat + plan.kept = plan.covenant.locked.toNat ∧
      (inOrder funded).foldlM (addChangeOut s plan consumed) (none, []) = .ok changes ∧
      orderOutputs plan (explicitOut plan.credit.asset plan.credit.value credit)
        (explicitOut plan.covenant.asset filled plan.receiptAddr.scriptPubkey)
        (.newFee plan.feeAtoms plan.feeAsset) changes.1 changes.2 = .ok outputs := by
  obtain ⟨funded, hfunded, h⟩ := except_bind_ok_iff.1 h
  obtain ⟨credited, hcredited, h⟩ := except_bind_ok_iff.1 h
  obtain ⟨consumed, hconsumed, h⟩ := except_bind_ok_iff.1 h
  split at h
  · cases h
  · rename_i hasset
    obtain ⟨credit, hcredit, h⟩ := except_bind_ok_iff.1 h
    split at h
    · cases h
    · rename_i filled hfilled
      split at h
      · cases h
      · obtain ⟨changes, hchanges, h⟩ := except_bind_ok_iff.1 h
        refine ⟨funded, consumed, credit, filled, changes, hfunded, ?_, ?_, hcredit,
          checkedSub_eq_some hfilled, hchanges, h⟩
        · intro a
          rw [consume_ok hconsumed, consume_ok hcredited, totalOf_empty, Nat.zero_add]
        · rwa [← AList.lookup_isSome]

theorem paysOf_remainderOut (a : AssetId) :
    paysOf plan.remainderOut.toList a = if plan.covenant.asset = a then plan.kept else 0 := by
  unfold CovenantFillPlan.remainderOut CovenantFillPlan.kept
  cases plan.remainder with
  | none => simp
  | some rem => simp

theorem fundsOf_eq_zero {l : List TakerFundingInput} {a : AssetId} (h : ∀ ti ∈ l, ti.asset ≠ a) :
    fundsOf l a = 0 := by
  induction l with
  | nil => rfl
  | cons ti l ih =>
    rw [forall_mem_cons] at h
    simp only [fundsOf, map_cons, sum_cons, if_neg h.1, Nat.zero_add]
    exact ih h.2

theorem fillOutputs_balance_iff (h : fillOutputs s plan = .ok outputs) (a : AssetId) :
    plan.comesIn a = paysOf outputs a ↔ ((∀ ti ∈ plan.takerInputs, ti.asset ≠ a) →
      (plan.credit.asset = a → plan.credit.value = 0) ∧
        (plan.feeAsset = a → plan.feeAtoms = 0)) := by
  obtain ⟨funded, consumed, credit, filled, changes, hfunded, hconsumed, hasset, hcredit, hfilled,
    hchanges, horder⟩ := fillOutputs_ok h
  obtain ⟨-, hperm, -⟩ := orderOutputs_ok horder
  obtain ⟨htotal, hmem⟩ := funded_ok hfunded a
  obtain ⟨hchange, hnochange⟩ := changes_ok hchanges a
  have hnone : (∀ ti ∈ plan.takerInputs, ti.asset ≠ a) ↔ a ∉ funded := by
    rw [hmem]
    simp
  have hpays : paysOf outputs a = totalOf consumed a +
      (if plan.covenant.asset = a then plan.covenant.locked.toNat else 0) +
        paysOf (changes.1.toList ++ changes.2) a := by
    rw [paysOf_perm hperm, hconsumed, ← hfilled]
    simp only [paysOf_append, paysOf_cons, paysOf_nil, paysOf_remainderOut, explicitOut_paysOf,
      TxOut.newFee, cons_append]
    by_cases hsold : plan.covenant.asset = a
    · simp only [if_pos hsold]
      omega
    · simp only [if_neg hsold]
      omega
  rw [hpays, CovenantFillPlan.comesIn, hnone]
  rw [totalOf_empty, Nat.zero_add] at htotal
  by_cases ha : a ∈ funded
  · have hbalance := hchange ha
    constructor
    · exact fun _ hnot => absurd ha hnot
    · intro _
      omega
  · have hzero : fundsOf plan.takerInputs a = 0 := fundsOf_eq_zero (hnone.2 ha)
    rw [hnochange ha, hzero, hconsumed]
    constructor
    · intro hbalance _
      constructor
      all_goals
        intro heq
        rw [if_pos heq] at hbalance
        exact UInt64.toNat_inj.1 (by rw [UInt64.toNat_zero]; omega)
    · intro hunpaid
      obtain ⟨hcredit0, hfee0⟩ := hunpaid ha
      have hzero {b : AssetId} {v : UInt64} (h : b = a → v = 0) :
          (if b = a then v.toNat else 0) = 0 := by
        split
        · rename_i heq
          rw [h heq]
          rfl
        · rfl
      rw [hzero hcredit0, hzero hfee0]
      omega

theorem fillOutputs_layout (h : fillOutputs s plan = .ok outputs)
    (hbalance : ∀ a, plan.comesIn a = paysOf outputs a) : plan.InOrder outputs := by
  obtain ⟨funded, consumed, credit, filled, changes, hfunded, hconsumed, hasset, hcredit, hfilled,
    hchanges, horder⟩ := fillOutputs_ok h
  obtain ⟨hfirst, hperm, hslot⟩ := orderOutputs_ok horder
  have hmem := mem_changes hchanges
  refine ⟨hbalance, ⟨credit, hcredit, hfirst⟩, ?_, _, _, _, hperm, hfirst, rfl, ?_, ?_⟩
  · unfold CovenantFillPlan.RightSlot
    cases hrem : plan.remainderOut with
    | some o =>
      simp only [hrem] at hslot
      exact hslot
    | none =>
      simp only [hrem] at hslot
      obtain ⟨o, ho, hchange | ⟨rfl, hfee⟩⟩ := hslot
      · obtain ⟨asset, hfundedAsset, value, rfl⟩ := hmem o hchange
        exact ⟨asset, value, _, fun heq => hasset (heq ▸ hfundedAsset), ho⟩
      · exact ⟨_, _, _, hfee, ho⟩
  · intro o ho
    rcases mem_cons.1 ho with rfl | ho
    · exact .inl rfl
    · obtain ⟨asset, -, value, rfl⟩ := hmem o ho
      exact .inr rfl
  · rw [paysOf_cons, explicitOut_paysOf, if_pos rfl, (changes_ok hchanges _).2 hasset]
    omega

theorem buildCovenantFillTx_ok {tx : RawTransaction TxOut}
    (h : buildCovenantFillTx s plan = .ok tx) : fillOutputs s plan = .ok tx.output := by
  obtain ⟨inputs, -, h⟩ := except_bind_ok_iff.1 h
  obtain ⟨outputs, houtputs, h⟩ := except_bind_ok_iff.1 h
  have hkept : tx.output = outputs := by
    refine foldlM_ok_inv (motive := fun tx' => tx'.output = outputs) h rfl ?_
    intro tx₁ e tx₂ htx₁ hsign
    unfold signP2wpkh at hsign
    dsimp only at hsign
    split at hsign
    · cases hsign
    · cases hsign
      exact htx₁
  rw [houtputs, hkept]

/-- **Covenant fills balance** and keep the layout the covenant asks for if and only if the taker
puts in some of every asset that they pay. -/
theorem covenantFill_inOrder_iff (s : Signing TxOut) (plan : CovenantFillPlan)
    (tx : RawTransaction TxOut) (h : buildCovenantFillTx s plan = .ok tx) :
    plan.InOrder tx.output ↔ plan.FundsOutputs := by
  have houtputs := buildCovenantFillTx_ok h
  constructor
  · intro hfill a
    exact (fillOutputs_balance_iff houtputs a).1 (hfill.balance a)
  · intro hfunds
    refine fillOutputs_layout houtputs ?_
    intro a
    exact (fillOutputs_balance_iff houtputs a).2 (hfunds a)

end Fill

/-! ## A fill that nobody pays for -/

namespace UnfundedFill

def signing : Signing TxOut := Concrete.signing TxOut

def plan : CovenantFillPlan where
  covenant := ⟨"07", 0, 1, 1000, [0x51], [0xc0]⟩
  credit := ⟨2, List.replicate 32 0, 1, 500⟩
  remainder := none
  takerInputs := [⟨"07", 1, 300, 3, p2wpkhSpk (List.replicate 20 0), 1⟩]
  receiptAddr := ⟨[0x52], none⟩
  changeAddr := ⟨[0x53], none⟩
  feeAtoms := 100
  feeAsset := 3

def tx : RawTransaction TxOut := Concrete.built (buildCovenantFillTx signing plan)

theorem builds : buildCovenantFillTx signing plan = .ok tx := Concrete.built_ok (by decide)

/-- The maker is credited with 500 of an asset of which nothing goes in. -/
theorem fill_unbalanced : buildCovenantFillTx signing plan = .ok tx ∧ ¬ plan.InOrder tx.output := by
  refine ⟨builds, ?_⟩
  intro hfill
  exact absurd (hfill.balance 2) (by decide)

theorem covenantFill_inOrder_iff_unfunded : plan.InOrder tx.output ↔ plan.FundsOutputs :=
  covenantFill_inOrder_iff signing plan tx builds

end UnfundedFill

end Swk
