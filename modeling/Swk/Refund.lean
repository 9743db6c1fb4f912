import Swk.Covenant

/-!
# Reclaiming an expired order

`build_covenant_refund_tx` takes the coin of a resting order back once it has expired. The
covenant's refund leaf looks at no outputs; it asks for a signature of the maker and for a lock
time, which only counts if the inputs are not final.

The fee is taken from the coin itself, or else from coins of other assets that the maker adds, and
change of every asset goes back. In both modes the transaction balances in every asset, also in
those that pay no fee, and it carries the signatures it needs (`covenantRefund_refunds`).
-/

namespace Swk

open List

/-! ## The plan -/

/-- `CovenantRefundInput`: the covenant's coin, and the leaf that gives it back. -/
structure CovenantRefundInput where
  txid : String
  vout : Nat
  asset : AssetId
  locked : UInt64
  spk : List UInt8
  refundLeaf : List UInt8
  controlBlock : List UInt8
  makerSecret : SecretKey

structure CovenantRefundPlan where
  covenant : CovenantRefundInput
  expiryLocktime : UInt32
  reclaimAddr : Address
  feeAtoms : UInt64
  feeAsset : AssetId
  feeInputs : List TakerFundingInput
  changeAddr : Address
  genesisHash : BlockHash

/-- The third-party code of a refund: what a fill needs, and taproot. -/
structure RefundSigning extends Signing TxOut where
  /-- `taproot_script_spend_signature_hash` of an input, with all prevouts, the script of the leaf,
  the position of its last code separator, its version and the genesis hash, for
  `SIGHASH_DEFAULT`. -/
  taprootSighash : RawTransaction TxOut → Nat → List TxOut → Script → UInt32 → UInt8 → BlockHash →
    Except String (BitVec 256)
  signSchnorr : BitVec 256 → SecretKey → List UInt8

def sequenceEnableLocktime : UInt32 := 0xfffffffe

/-! ## The transaction -/

variable (s : RefundSigning)

/-- A fee input and the output it spends. Only `p2wpkh` coins are taken. -/
def refundFeeInput (fi : TakerFundingInput) : Except Error (RawTxIn × TxOut) :=
  if fi.spk.length ≠ 22 ∨ fi.spk[0]? ≠ some 0x00 ∨ fi.spk[1]? ≠ some 0x14 then
    .error (.generic ("refund fee input " ++ fi.name ++ " is not p2wpkh (spk " ++
      toHex fi.spk ++ ")"))
  else do
    let txid ← parseTxid s.toSigning "fee input" fi.txid
    pure (unsignedInput ⟨txid, fi.vout⟩ sequenceEnableLocktime,
      explicitOut fi.asset fi.value fi.spk)

/-- The inputs, the covenant's coin first, and the outputs they spend. -/
def refundInputs (plan : CovenantRefundPlan) : Except Error (List (RawTxIn × TxOut)) := do
  let covTxid ← parseTxid s.toSigning "covenant" plan.covenant.txid
  let fees ← plan.feeInputs.mapM (refundFeeInput s)
  pure ((unsignedInput ⟨covTxid, plan.covenant.vout⟩ sequenceEnableLocktime,
    explicitOut plan.covenant.asset plan.covenant.locked plan.covenant.spk) :: fees)

/-- Add a fee input to the funds of its asset, which must not be asset A. -/
def fundFee (a : AssetId) (funded : HashMap AssetId UInt64) (fi : TakerFundingInput) :
    Except Error (HashMap AssetId UInt64) :=
  if fi.asset = a then
    .error (.generic
      "refund fee input must not be the covenant asset when the fee is a different asset")
  else
    match checkedAdd ((funded.lookup fi.asset).getD 0) fi.value with
    | some total => .ok (funded.insert fi.asset total)
    | none => .error (.generic "refund fee funding overflow")

def CovenantRefundPlan.feeOf (plan : CovenantRefundPlan) (a : AssetId) : UInt64 :=
  if a = plan.feeAsset then plan.feeAtoms else 0

def addRefundChange (plan : CovenantRefundPlan) (outputs : List TxOut) (e : AssetId × UInt64) :
    Except Error (List TxOut) :=
  match checkedSub e.2 (plan.feeOf e.1) with
  | none => .error (.generic "refund fee change underflow")
  | some change =>
    if 0 < change then .ok (outputs ++ [explicitOut e.1 change plan.changeAddr.scriptPubkey])
    else .ok outputs

/-- The outputs. A fee in asset A comes out of the covenant's coin, any other out of the fee
inputs. -/
def refundOutputs (plan : CovenantRefundPlan) : Except Error (List TxOut) :=
  if plan.feeAsset = plan.covenant.asset then
    if !plan.feeInputs.isEmpty then
      .error (.generic "fee paid in the covenant asset must not carry external fee inputs")
    else
      match checkedSub plan.covenant.locked plan.feeAtoms with
      | none => .error (.generic "fee exceeds the reclaimed covenant value")
      | some reclaim =>
        if reclaim = 0 then .error (.generic "reclaimed value is zero after fee")
        else
          .ok [explicitOut plan.covenant.asset reclaim plan.reclaimAddr.scriptPubkey,
            .newFee plan.feeAtoms plan.feeAsset]
  else do
    let funded ← plan.feeInputs.foldlM (fundFee plan.covenant.asset) ∅
    let feeFunded := (funded.lookup plan.feeAsset).getD 0
    if feeFunded < plan.feeAtoms then
      throw (.generic ("insufficient fee asset: need " ++ toString plan.feeAtoms ++ ", funded " ++
        toString feeFunded))
    else
      let outputs ← (inOrder funded).foldlM (addRefundChange plan)
        [explicitOut plan.covenant.asset plan.covenant.locked plan.reclaimAddr.scriptPubkey]
      pure (outputs ++ [.newFee plan.feeAtoms plan.feeAsset])

/-- Sign the covenant's coin, for the leaf version that the control block names. -/
def signCovenant (plan : CovenantRefundPlan) (prevouts : List TxOut)
    (tx : RawTransaction TxOut) : Except Error (RawTransaction TxOut) :=
  match plan.covenant.controlBlock with
  | [] => .error (.generic "refund control block is empty")
  | first :: _ =>
    match s.taprootSighash tx 0 prevouts plan.covenant.refundLeaf 0xffffffff (first &&& 0xfe)
        plan.genesisHash with
    | .error e => .error (.generic ("refund tapscript sighash: " ++ e))
    | .ok sighash =>
      .ok (tx.setWitness 0 [s.signSchnorr sighash plan.covenant.makerSecret,
        plan.covenant.refundLeaf, plan.covenant.controlBlock])

/-- `build_covenant_refund_tx`: the transaction that is serialised. -/
def buildCovenantRefundTx (plan : CovenantRefundPlan) : Except Error (RawTransaction TxOut) := do
  let inputs ← refundInputs s plan
  let outputs ← refundOutputs plan
  let tx : RawTransaction TxOut := ⟨2, plan.expiryLocktime, inputs.map (·.1), outputs⟩
  let tx ← signCovenant s plan (inputs.map (·.2)) tx
  plan.feeInputs.zipIdx.foldlM (signP2wpkh s.toSigning "refund fee") tx

/-! ## Outputs -/

namespace CovenantRefundPlan

/-- What goes in of an asset: the covenant's coin and the fee inputs. -/
def comesIn (plan : CovenantRefundPlan) (a : AssetId) : Nat :=
  (if plan.covenant.asset = a then plan.covenant.locked.toNat else 0) + fundsOf plan.feeInputs a

/-- The outputs of a refund: asset A to the reclaim address, less a fee in it, then change, and the
fee at the end. -/
structure Reclaims (plan : CovenantRefundPlan) (outputs : List TxOut) : Prop where
  layout : ∃ (reclaim : UInt64) (changes : List TxOut),
    outputs = explicitOut plan.covenant.asset reclaim plan.reclaimAddr.scriptPubkey ::
      (changes ++ [.newFee plan.feeAtoms plan.feeAsset]) ∧
    reclaim.toNat + (if plan.feeAsset = plan.covenant.asset then plan.feeAtoms.toNat else 0) =
      plan.covenant.locked.toNat ∧
    ∀ o ∈ changes, o.scriptPubkey = plan.changeAddr.scriptPubkey
  balance : ∀ a, plan.comesIn a = paysOf outputs a

end CovenantRefundPlan

section Outputs

variable {plan : CovenantRefundPlan}

variable {a : AssetId} {m m' : HashMap AssetId UInt64} {outputs' : List TxOut}

theorem fundFee_ok {fi : TakerFundingInput} (h : fundFee a m fi = .ok m') :
    fi.asset ≠ a ∧ ∃ total, checkedAdd ((m.lookup fi.asset).getD 0) fi.value = some total ∧
      m' = m.insert fi.asset total := by
  unfold fundFee at h
  split at h
  · cases h
  · next hasset =>
      refine ⟨hasset, ?_⟩
      cases hadd : checkedAdd ((m.lookup fi.asset).getD 0) fi.value with
      | none => simp [hadd] at h
      | some total =>
        simp only [hadd, Except.ok.injEq] at h
        exact ⟨total, rfl, h.symm⟩

theorem fundFees_ok {l : List TakerFundingInput} (h : l.foldlM (fundFee a) m = .ok m') :
    (∀ b, totalOf m' b = totalOf m b + fundsOf l b ∧
      (b ∈ m' ↔ b ∈ m ∨ ∃ fi ∈ l, fi.asset = b)) ∧ (a ∉ m → a ∉ m') := by
  constructor
  · intro b
    refine foldlM_funds ?_ h b
    intro m fi m' hfund b
    obtain ⟨-, total, hadd, rfl⟩ := fundFee_ok hfund
    rw [AList.mem_insert]
    exact ⟨totalOf_insert hadd b, by tauto⟩
  · intro ha
    refine foldlM_ok_inv (motive := fun m => a ∉ m) h ha ?_
    intro m fi m' hm hfund
    obtain ⟨hasset, total, -, rfl⟩ := fundFee_ok hfund
    rw [AList.mem_insert, not_or]
    exact ⟨hasset.symm, hm⟩

variable {outputs : List TxOut}

theorem addRefundChange_ok {e : AssetId × UInt64}
    (h : addRefundChange plan outputs e = .ok outputs') : plan.feeOf e.1 ≤ e.2 ∧
      outputs' = outputs ++ (changeOf plan.changeAddr.scriptPubkey plan.feeOf e).toList := by
  unfold addRefundChange checkedSub at h
  unfold changeOf
  by_cases hcovers : plan.feeOf e.1 ≤ e.2
  · refine ⟨hcovers, ?_⟩
    rw [if_pos hcovers] at h
    dsimp only at h
    by_cases hpos : 0 < e.2 - plan.feeOf e.1
    · rw [if_pos hpos] at h ⊢
      cases h
      rfl
    · rw [if_neg hpos] at h ⊢
      cases h
      simp
  · rw [if_neg hcovers] at h
    cases h

theorem addRefundChanges_ok {l : List (AssetId × UInt64)}
    (h : l.foldlM (addRefundChange plan) outputs = .ok outputs') : (∀ e ∈ l, plan.feeOf e.1 ≤ e.2) ∧
      outputs' = outputs ++ l.filterMap (changeOf plan.changeAddr.scriptPubkey plan.feeOf) := by
  induction l generalizing outputs with
  | nil =>
    cases h
    simp
  | cons e l ih =>
    rw [foldlM_cons] at h
    obtain ⟨outputs₁, hadd, h⟩ := except_bind_ok_iff.1 h
    obtain ⟨hcovers, rfl⟩ := addRefundChange_ok hadd
    obtain ⟨hall, rfl⟩ := ih h
    refine ⟨forall_mem_cons.2 ⟨hcovers, hall⟩, ?_⟩
    rw [filterMap_changeOf_cons, append_assoc]

theorem feeOf_toNat (a : AssetId) :
    (plan.feeOf a).toNat = if plan.feeAsset = a then plan.feeAtoms.toNat else 0 := by
  unfold CovenantRefundPlan.feeOf
  by_cases ha : a = plan.feeAsset
  · rw [if_pos ha, if_pos ha.symm]
  · rw [if_neg ha, if_neg (Ne.symm ha)]
    rfl

theorem refundChanges_balance {funded : HashMap AssetId UInt64} (spk : Script)
    (hcovers : ∀ e ∈ inOrder funded, plan.feeOf e.1 ≤ e.2)
    (hpaid : plan.feeAtoms ≤ (funded.lookup plan.feeAsset).getD 0) (a : AssetId) :
    paysOf ((inOrder funded).filterMap (changeOf spk plan.feeOf)) a +
      (if plan.feeAsset = a then plan.feeAtoms.toNat else 0) = totalOf funded a := by
  obtain ⟨hfunded, hunfunded⟩ := changes_paysOf spk hcovers a
  by_cases ha : a ∈ funded
  · rw [← feeOf_toNat, hfunded ha]
  · -- an asset without funds is the fee's only if there is no fee
    have hlookup : funded.lookup a = none := AList.lookup_eq_none.2 ha
    rw [hunfunded ha, totalOf, hlookup, Option.getD_none, UInt64.toNat_zero, Nat.zero_add]
    split
    · next hfee =>
        rw [hfee, hlookup, Option.getD_none, UInt64.le_iff_toNat_le, UInt64.toNat_zero] at hpaid
        omega
    · rfl

theorem refundOutputs_covenant (hfee : plan.feeAsset = plan.covenant.asset)
    (h : refundOutputs plan = .ok outputs) : plan.Reclaims outputs := by
  unfold refundOutputs at h
  rw [if_pos hfee] at h
  split at h
  · cases h
  · next hinputs =>
      have hnone : plan.feeInputs = [] := by simpa using hinputs
      split at h
      · cases h
      · next reclaim hreclaim =>
          split at h
          · cases h
          · cases h
            have hsum := checkedSub_eq_some hreclaim
            refine ⟨⟨reclaim, [], rfl, ?_, by simp⟩, fun a => ?_⟩
            · rw [if_pos hfee, hsum]
            · have hfunds : fundsOf plan.feeInputs a = 0 := by
                rw [hnone]
                rfl
              simp only [CovenantRefundPlan.comesIn, hfunds, paysOf_cons, paysOf_nil,
                explicitOut_paysOf, TxOut.newFee, hfee]
              split <;> omega

theorem refundOutputs_external (hfee : plan.feeAsset ≠ plan.covenant.asset)
    (h : refundOutputs plan = .ok outputs) : plan.Reclaims outputs := by
  unfold refundOutputs at h
  rw [if_neg hfee] at h
  obtain ⟨funded, hfunded, h⟩ := except_bind_ok_iff.1 h
  dsimp only at h
  split at h
  · cases h
  · next hpaid =>
      obtain ⟨outputs₁, hchanges, h⟩ := except_bind_ok_iff.1 h
      cases h
      obtain ⟨hcovers, rfl⟩ := addRefundChanges_ok hchanges
      obtain ⟨htotals, hnotA⟩ := fundFees_ok hfunded
      refine ⟨⟨plan.covenant.locked, _, rfl, ?_, ?_⟩, fun a => ?_⟩
      · rw [if_neg hfee, Nat.add_zero]
      · intro o ho
        obtain ⟨e, -, hout⟩ := mem_filterMap.1 ho
        obtain ⟨value, rfl⟩ := changeOf_eq_some hout
        rfl
      · have htotal := (htotals a).1
        rw [totalOf_empty, Nat.zero_add] at htotal
        have hchange := refundChanges_balance plan.changeAddr.scriptPubkey hcovers
          (UInt64.not_lt.1 hpaid) a
        simp only [CovenantRefundPlan.comesIn, cons_append, nil_append, paysOf_cons,
          paysOf_append, paysOf_nil, explicitOut_paysOf, TxOut.newFee]
        omega

end Outputs

/-! ## Signatures -/

def RawTransaction.unsigned {Out : Type} (tx : RawTransaction Out) : RawTransaction Out :=
  { tx with input := tx.input.map fun i => { i with scriptWitness := [] } }

def RawTransaction.witnessAt {Out : Type} (tx : RawTransaction Out) (index : Nat) :
    Option (List (List UInt8)) :=
  tx.input[index]?.map (·.scriptWitness)

section Witness

variable {Out : Type} {tx tx' : RawTransaction Out} {index : Nat} {witness : List (List UInt8)}

theorem setWitness_unsigned : (tx.setWitness index witness).unsigned = tx.unsigned := by
  unfold RawTransaction.unsigned RawTransaction.setWitness
  congr 1
  apply ext_getElem?
  intro i
  rw [getElem?_map, getElem?_map, getElem?_modify]
  cases tx.input[i]? with
  | none => rfl
  | some input =>
    by_cases hi : index = i
    · simp [hi]
    · simp [hi]

theorem witnessAt_setWitness (hindex : index < tx.input.length) :
    (tx.setWitness index witness).witnessAt index = some witness := by
  unfold RawTransaction.setWitness RawTransaction.witnessAt
  rw [getElem?_modify, getElem?_eq_getElem hindex]
  simp

theorem witnessAt_setWitness_ne {i : Nat} (hi : index ≠ i) :
    (tx.setWitness index witness).witnessAt i = tx.witnessAt i := by
  unfold RawTransaction.setWitness RawTransaction.witnessAt
  rw [getElem?_modify]
  simp [hi]

theorem unsigned_length (h : tx.unsigned = tx'.unsigned) : tx.input.length = tx'.input.length := by
  have hinputs := congrArg (fun tx => tx.input.length) h
  simpa [RawTransaction.unsigned] using hinputs

theorem unsigned_output (h : tx.unsigned = tx'.unsigned) : tx.output = tx'.output :=
  congrArg (fun tx => tx.output) h

theorem unsigned_lockTime (h : tx.unsigned = tx'.unsigned) : tx.lockTime = tx'.lockTime :=
  congrArg (fun tx => tx.lockTime) h

theorem unsigned_inputs (h : tx.unsigned = tx'.unsigned) :
    tx.input.map (fun i => (i.previousOutput, i.sequence)) =
      tx'.input.map fun i => (i.previousOutput, i.sequence) := by
  have hinputs := congrArg
    (fun tx => tx.input.map fun i : RawTxIn => (i.previousOutput, i.sequence)) h
  simpa [RawTransaction.unsigned, Function.comp_def] using hinputs

end Witness

/-- The witness of an input is a signature with the key of a coin, which is the one its script asks
for, and that key. -/
structure SignedWith (s : RefundSigning) (fi : TakerFundingInput) (index : Nat)
    (tx : RawTransaction TxOut) : Prop where
  key : p2wpkhSpk (s.hash160 (s.publicKey fi.secretKey)) = fi.spk
  witness : ∃ tx₀ : RawTransaction TxOut, tx₀.unsigned = tx.unsigned ∧ tx.witnessAt index = some
      [s.signEcdsa (s.segwitv0Sighash tx₀ index
          (p2wpkhScriptCode (s.hash160 (s.publicKey fi.secretKey))) fi.value) fi.secretKey ++
        [sighashAllByte], s.publicKey fi.secretKey]

section Sign

variable {s : RefundSigning} {plan : CovenantRefundPlan} {tx tx' : RawTransaction TxOut}

theorem signP2wpkh_ok {what : String} {e : TakerFundingInput × Nat}
    (h : signP2wpkh s.toSigning what tx e = .ok tx') (hindex : 1 + e.2 < tx.input.length) :
    tx'.unsigned = tx.unsigned ∧ SignedWith s e.1 (1 + e.2) tx' ∧
      ∀ i, 1 + e.2 ≠ i → tx'.witnessAt i = tx.witnessAt i := by
  unfold signP2wpkh at h
  dsimp only at h
  split at h
  · cases h
  · next hkey =>
      cases h
      refine ⟨setWitness_unsigned, ⟨not_not.1 hkey, tx, setWitness_unsigned.symm,
        witnessAt_setWitness hindex⟩, fun i hi => witnessAt_setWitness_ne hi⟩

theorem signAll_ok {what : String} {l : List TakerFundingInput} {n : Nat}
    (hlength : tx.input.length = 1 + n + l.length)
    (h : (l.zipIdx n).foldlM (signP2wpkh s.toSigning what) tx = .ok tx') :
    tx'.unsigned = tx.unsigned ∧
      (∀ i fi, l[i]? = some fi → SignedWith s fi (1 + n + i) tx') ∧
      ∀ i ≤ n, tx'.witnessAt i = tx.witnessAt i := by
  induction l generalizing n tx with
  | nil =>
    cases h
    simp
  | cons fi l ih =>
    rw [zipIdx_cons, foldlM_cons] at h
    obtain ⟨tx₁, hsign, h⟩ := except_bind_ok_iff.1 h
    rw [length_cons] at hlength
    obtain ⟨hsame, hsigned, hothers⟩ := signP2wpkh_ok hsign (by dsimp only; omega)
    have hlength₁ : tx₁.input.length = 1 + (n + 1) + l.length := by
      rw [unsigned_length hsame]
      omega
    obtain ⟨hsame', hall, hkeep⟩ := ih hlength₁ h
    refine ⟨hsame'.trans hsame, ?_, ?_⟩
    · intro i fi' hfi'
      cases i with
      | zero =>
        cases hfi'
        -- the later steps do not touch this witness
        obtain ⟨hkey, tx₀, htx₀, hwitness⟩ := hsigned
        refine ⟨hkey, tx₀, htx₀.trans hsame'.symm, ?_⟩
        rw [Nat.add_zero, hkeep (1 + n) (by omega), hwitness]
      | succ i =>
        have hlater := hall i fi' hfi'
        rwa [show 1 + (n + 1) + i = 1 + n + (i + 1) by omega] at hlater
    · intro i hi
      rw [hkeep i (by omega), hothers i (by dsimp only; omega)]

theorem signCovenant_ok {prevouts : List TxOut} (h : signCovenant s plan prevouts tx = .ok tx')
    (hlength : 0 < tx.input.length) : tx'.unsigned = tx.unsigned ∧ ∃ first rest sighash,
      plan.covenant.controlBlock = first :: rest ∧
      s.taprootSighash tx 0 prevouts plan.covenant.refundLeaf 0xffffffff (first &&& 0xfe)
        plan.genesisHash = .ok sighash ∧
      tx'.witnessAt 0 = some [s.signSchnorr sighash plan.covenant.makerSecret,
        plan.covenant.refundLeaf, plan.covenant.controlBlock] := by
  unfold signCovenant at h
  split at h
  · cases h
  · next first rest hcontrol =>
      split at h
      · cases h
      · next sighash hsighash =>
          cases h
          exact ⟨setWitness_unsigned, first, rest, sighash, hcontrol, hsighash,
            witnessAt_setWitness hlength⟩

end Sign

/-! ## The refund -/

namespace CovenantRefundPlan

def coins (plan : CovenantRefundPlan) : List (String × Nat) :=
  (plan.covenant.txid, plan.covenant.vout) :: plan.feeInputs.map fun fi => (fi.txid, fi.vout)

def prevouts (plan : CovenantRefundPlan) : List TxOut :=
  explicitOut plan.covenant.asset plan.covenant.locked plan.covenant.spk ::
    plan.feeInputs.map fun fi => explicitOut fi.asset fi.value fi.spk

end CovenantRefundPlan

def SpendsCoin (s : RefundSigning) (input : RawTxIn) (coin : String × Nat) : Prop :=
  ∃ txid, s.txidFromStr coin.1 = .ok txid ∧ input.previousOutput = ⟨txid, coin.2⟩ ∧
    input.sequence = sequenceEnableLocktime

/-- **A refund**: the outputs balance and go where they should, the transaction is locked until the
order has expired, and each coin is signed for. -/
structure Refunds (s : RefundSigning) (plan : CovenantRefundPlan) (tx : RawTransaction TxOut) :
    Prop where
  outputs : plan.Reclaims tx.output
  lockTime : tx.lockTime = plan.expiryLocktime
  inputs : List.Forall₂ (SpendsCoin s) tx.input plan.coins
  notFinal : ∀ i ∈ tx.input, i.sequence ≠ 0xffffffff
  covenant : ∃ tx₀ first rest sighash, tx₀.unsigned = tx.unsigned ∧
    plan.covenant.controlBlock = first :: rest ∧
    s.taprootSighash tx₀ 0 plan.prevouts plan.covenant.refundLeaf 0xffffffff (first &&& 0xfe)
      plan.genesisHash = .ok sighash ∧
    tx.witnessAt 0 = some [s.signSchnorr sighash plan.covenant.makerSecret,
      plan.covenant.refundLeaf, plan.covenant.controlBlock]
  feeInputs : ∀ i fi, plan.feeInputs[i]? = some fi → SignedWith s fi (1 + i) tx

section Refund

variable {s : RefundSigning} {plan : CovenantRefundPlan}

theorem parseTxid_ok {s : Signing TxOut} {what txid : String} {id : Txid}
    (h : parseTxid s what txid = .ok id) : s.txidFromStr txid = .ok id := by
  unfold parseTxid at h
  split at h
  · next hid =>
      cases h
      exact hid
  · cases h

theorem refundFeeInput_ok {fi : TakerFundingInput} {e : RawTxIn × TxOut}
    (h : refundFeeInput s fi = .ok e) :
    SpendsCoin s e.1 (fi.txid, fi.vout) ∧ e.2 = explicitOut fi.asset fi.value fi.spk := by
  unfold refundFeeInput at h
  split at h
  · cases h
  · obtain ⟨txid, htxid, h⟩ := except_bind_ok_iff.1 h
    cases h
    exact ⟨⟨txid, parseTxid_ok htxid, rfl, rfl⟩, rfl⟩

theorem refundInputs_ok {inputs : List (RawTxIn × TxOut)} (h : refundInputs s plan = .ok inputs) :
    List.Forall₂ (SpendsCoin s) (inputs.map (·.1)) plan.coins ∧
      inputs.map (·.2) = plan.prevouts := by
  obtain ⟨covTxid, hcov, h⟩ := except_bind_ok_iff.1 h
  obtain ⟨fees, hfees, h⟩ := except_bind_ok_iff.1 h
  cases h
  have hall := mapM_ok_forall₂ hfees
  constructor
  · refine .cons ⟨covTxid, parseTxid_ok hcov, rfl, rfl⟩ ?_
    rw [forall₂_map_left_iff, forall₂_map_right_iff]
    exact hall.flip.imp fun _ _ he => (refundFeeInput_ok he).1
  · have hprevouts : List.Forall₂ Eq (fees.map (·.2))
        (plan.feeInputs.map fun fi => explicitOut fi.asset fi.value fi.spk) := by
      rw [forall₂_map_left_iff, forall₂_map_right_iff]
      exact hall.flip.imp fun _ _ he => (refundFeeInput_ok he).2
    rw [forall₂_eq_eq_eq] at hprevouts
    rw [CovenantRefundPlan.prevouts, map_cons, hprevouts]

theorem refundOutputs_ok {outputs : List TxOut} (h : refundOutputs plan = .ok outputs) :
    plan.Reclaims outputs := by
  by_cases hfee : plan.feeAsset = plan.covenant.asset
  · exact refundOutputs_covenant hfee h
  · exact refundOutputs_external hfee h

theorem spendsCoin_unsigned {tx tx' : RawTransaction TxOut} {coins : List (String × Nat)}
    (h : tx'.unsigned = tx.unsigned) (hspends : List.Forall₂ (SpendsCoin s) tx.input coins) :
    List.Forall₂ (SpendsCoin s) tx'.input coins := by
  -- whether a coin is spent shows in what an input says besides its witness
  have hseen (l : List RawTxIn) : List.Forall₂ (SpendsCoin s) l coins ↔
      List.Forall₂ (fun e coin => ∃ txid, s.txidFromStr coin.1 = .ok txid ∧
        e.1 = ⟨txid, coin.2⟩ ∧ e.2 = sequenceEnableLocktime)
        (l.map fun i => (i.previousOutput, i.sequence)) coins := by
    rw [forall₂_map_left_iff]
    rfl
  rw [hseen, unsigned_inputs h, ← hseen]
  exact hspends

theorem notFinal_of_spendsCoin {inputs : List RawTxIn} {coins : List (String × Nat)}
    (h : List.Forall₂ (SpendsCoin s) inputs coins) : ∀ i ∈ inputs, i.sequence ≠ 0xffffffff := by
  induction h with
  | nil => simp
  | cons hcoin _ ih =>
    obtain ⟨txid, -, -, hsequence⟩ := hcoin
    refine forall_mem_cons.2 ⟨?_, ih⟩
    rw [hsequence]
    decide

end Refund

/-- **Covenant refunds balance and are signed for.** Whatever `build_covenant_refund_tx` returns
conserves every asset, pays the fee, the reclaimed coin and change as planned, and carries the lock
time and the witnesses that the spent scripts ask for. -/
theorem covenantRefund_refunds (s : RefundSigning) (plan : CovenantRefundPlan)
    (tx : RawTransaction TxOut) (h : buildCovenantRefundTx s plan = .ok tx) :
    Refunds s plan tx := by
  obtain ⟨inputs, hinputs, h⟩ := except_bind_ok_iff.1 h
  obtain ⟨outputs, houtputs, h⟩ := except_bind_ok_iff.1 h
  obtain ⟨tx₁, hcovenant, h⟩ := except_bind_ok_iff.1 h
  obtain ⟨hspends, hprevouts⟩ := refundInputs_ok hinputs
  have hlength : (inputs.map (·.1)).length = 1 + plan.feeInputs.length := by
    rw [hspends.length_eq, CovenantRefundPlan.coins, length_cons, length_map, Nat.add_comm]
  obtain ⟨hsame₁, first, rest, sighash, hcontrol, hsighash, hwitness⟩ :=
    signCovenant_ok hcovenant (by rw [hlength]; omega)
  have hlength₁ : tx₁.input.length = 1 + 0 + plan.feeInputs.length := by
    rw [unsigned_length hsame₁]
    exact hlength
  obtain ⟨hsame, hsigned, hkeep⟩ := signAll_ok hlength₁ h
  have hsame₀ := hsame.trans hsame₁
  have hcoins := spendsCoin_unsigned hsame₀ hspends
  refine ⟨?_, unsigned_lockTime hsame₀, hcoins, notFinal_of_spendsCoin hcoins, ?_, ?_⟩
  · rw [unsigned_output hsame₀]
    exact refundOutputs_ok houtputs
  · refine ⟨_, first, rest, sighash, hsame₀.symm, hcontrol, ?_, ?_⟩
    · rw [← hprevouts]
      exact hsighash
    · rw [hkeep 0 le_rfl, hwitness]
  · intro i fi hfi
    exact hsigned i fi hfi

namespace SampleRefund

def signing : RefundSigning :=
  { UnfundedFill.signing with
    taprootSighash := fun _ _ _ _ _ _ _ => .ok 0
    signSchnorr := fun _ _ => List.replicate 64 0 }

def plan : CovenantRefundPlan where
  covenant := ⟨"07", 0, 1, 1000, [0x51], [0x52], [0xc4], 1⟩
  expiryLocktime := 500
  reclaimAddr := ⟨[0x53], none⟩
  feeAtoms := 100
  feeAsset := 3
  feeInputs := [⟨"07", 1, 300, 3, p2wpkhSpk (List.replicate 20 0), 1⟩,
    ⟨"07", 2, 50, 4, p2wpkhSpk (List.replicate 20 0), 1⟩]
  changeAddr := ⟨[0x54], none⟩
  genesisHash := 0

def tx : RawTransaction TxOut := Concrete.built (buildCovenantRefundTx signing plan)

theorem builds : buildCovenantRefundTx signing plan = .ok tx := Concrete.built_ok (by decide)

theorem refunds_plan : Refunds signing plan tx := covenantRefund_refunds signing plan tx builds

end SampleRefund

end Swk
