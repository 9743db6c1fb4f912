import Mathlib.Algebra.Order.BigOperators.Group.List
import Swk.Consensus
import Swk.Inputs

/-!
# The weight that fees are paid for

`finish_inner` weighs the transaction with a temporary fee, adds what the signatures will take, and
pays for the sum. Then it sets the amounts and blinds again. What it returns has the inputs that
were weighed, with another sequence perhaps, and the outputs that were weighed, or one fewer, with
other amounts (`Run.settled`).

The weight is that of the serialisation if and only if no input issues (`weight_real_iff`).
-/

namespace Swk

open List

namespace Consensus

/-! ## What is weighed -/

namespace Transaction

variable (tx : Transaction)

/-- The weight that `finish_inner` asks for. -/
def weigh (ctDiscount : Bool) : Nat :=
  if ctDiscount then tx.discountWeight else tx.weight

/-- Three times the serialisation without witness data, and the whole serialisation. -/
def realWeight : Nat :=
  3 * tx.stripped.consensusEncode.length + tx.consensusEncode.length

/-- The weight of the serialisation, with the discount if the flag says so. -/
def realWeigh (ctDiscount : Bool) : Nat :=
  if ctDiscount then tx.realWeight - (tx.output.map TxOut.discount).sum else tx.realWeight

end Transaction

/-- What `blind_last` fills in for an output. -/
structure Blinded where
  asset : Commitment
  value : Commitment
  nonce : PublicKey
  surjectionProof : Bytes
  rangeproof : Bytes

/-- The space that the proofs take. -/
def Blinded.size (f : Blinded) : Nat :=
  sizedLength f.surjectionProof.length + sizedLength f.rangeproof.length

/-- An input as `extract_tx` gives it, before it is signed. The issuances here are explicit. -/
def extractInput (i : PsetInput) : TxIn where
  previousOutput := ⟨i.previousOutput.txid, UInt32.ofNat i.previousOutput.vout⟩
  isPegin := UInt32.ofNat i.previousOutput.vout &&& peginFlag != 0
  scriptSig := []
  sequence := i.sequence.getD 0xffffffff
  assetIssuance :=
    { assetBlindingNonce := i.issuanceBlindingNonce.getD .zero
      assetEntropy := i.issuanceAssetEntropy.getD 0
      amount := (i.issuanceValueAmount.map Value.explicit).getD .null
      inflationKeys := (i.issuanceInflationKeys.map Value.explicit).getD .null
      denomination := 8 }
  witness := .empty

/-- An output as `extract_tx` gives it: blinded if it has a blinding key. The outputs of the builder
state asset and amount. -/
def extractOutput (f : Blinded) (o : PsetOutput) : TxOut :=
  if o.blindingKey.isSome then
    { asset := .confidential f.asset
      value := .confidential f.value
      nonce := .confidential f.nonce
      scriptPubkey := o.scriptPubkey
      witness := ⟨some f.surjectionProof, some f.rangeproof⟩ }
  else
    { asset := (o.asset.map Asset.explicit).getD .null
      value := (o.amount.map Value.explicit).getD .null
      nonce := .null
      scriptPubkey := o.scriptPubkey
      witness := .empty }

/-- `extract_tx`, after `blind_last` if there is an output to blind. -/
def extractTx (blinded : Nat → Blinded) (p : Pset) : Transaction where
  version := 2
  lockTime := 0
  input := p.inputs.map extractInput
  output := p.outputs.mapIdx fun j o => extractOutput (blinded j) o

/-- The builder weighs the transaction that its partial transaction is extracted to. -/
def Weighs (x : Builder) (blind : Pset → InpTxoutSec → Except Error (Nat → Blinded)) : Prop :=
  ∀ pset secrets ctDiscount,
    x.weigh pset secrets (pset.outputs.any (·.blindingKey.isSome)) ctDiscount =
      (blind pset secrets).map fun blinded => (extractTx blinded pset).weigh ctDiscount

/-- **A run of `finish_inner`**, LiquiDEX apart, that returns a transaction. `blind_last` is called
twice, on the draft that is weighed and on what is returned; the second time its proofs take no more
space. A `usize` counts the outputs. -/
structure Run where
  x : Builder
  w : Wollet
  t : TxBuilder
  p : Pset
  blind : Pset → InpTxoutSec → Except Error (Nat → Blinded)
  draft : Build
  /-- What is passed to the fee calculation. -/
  weight : Nat
  first : Nat → Blinded
  last : Nat → Blinded
  notMake : t.isLiquidexMake = false
  notTake : t.liquidexProposals = []
  weighs : Weighs x blind
  finishes : t.finishInner x w = .ok p
  weighed : t.weighing x w (TxBuilder.start w) = .ok weight draft
  blinds : blind draft.pset draft.inpTxoutSec = .ok first
  proofs : ∀ j, (last j).size ≤ (first j).size
  length : p.outputs.length + 1 < 2 ^ 64

/-- The transaction that is returned. -/
def Run.tx (r : Run) : Transaction := extractTx r.last r.p

/-- An output after its amount is set: it is of the same kind, and its proofs take no more space. -/
structure TxOut.Settled (o o' : TxOut) : Prop where
  asset : assetLength o'.asset = assetLength o.asset
  valueLength : valueLength o'.value = valueLength o.value
  value : valueIsConfidential o'.value = valueIsConfidential o.value
  nonceLength : nonceLength o'.nonce = nonceLength o.nonce
  nonce : nonceIsConfidential o'.nonce = nonceIsConfidential o.nonce
  scriptPubkey : o'.scriptPubkey = o.scriptPubkey
  isEmpty : o'.witness.isEmpty = o.witness.isEmpty
  witness : o'.witnessSize ≤ o.witnessSize

/-- A transaction after its amounts are set. A `usize` counts its outputs. -/
structure Settled (tx tx' : Transaction) : Prop where
  length : tx.output.length < 2 ^ 64
  input : ∃ sequence : TxIn → UInt32,
    tx'.input = tx.input.map fun i => { i with sequence := sequence i }
  output : ∃ kept, List.Sublist kept tx.output ∧ List.Forall₂ TxOut.Settled kept tx'.output

/-! ## The discount -/

namespace TxOut

variable (o : TxOut)

/-- An output under the discount: the same whatever its proofs are. -/
def discounted (flag : Bool) : Nat :=
  4 * (o.baseSize - (if valueIsConfidential o.value then 33 - 9 else 0) -
    if nonceIsConfidential o.nonce then 33 - 1 else 0) + if flag then 2 else 0

theorem two_le_witnessSize : 2 ≤ o.witnessSize := by
  have hone (n : Nat) : 1 ≤ sizedLength n := by
    unfold sizedLength varIntSize
    split_ifs <;> omega
  have hsurjection := hone (proofLen o.witness.surjectionProof)
  have hrange := hone (proofLen o.witness.rangeproof)
  unfold witnessSize
  omega

theorem witnessSize_of_isEmpty {o : TxOut} (h : o.witness.isEmpty = true) : o.witnessSize = 2 := by
  simp only [TxOutWitness.isEmpty, Bool.and_eq_true, Option.isNone_iff_eq_none] at h
  rw [witnessSize, h.1, h.2]
  rfl

theorem confidential_le_baseSize : (if valueIsConfidential o.value then 33 - 9 else 0) +
      (if nonceIsConfidential o.nonce then 33 - 1 else 0) ≤ o.baseSize := by
  have hvalue : (if valueIsConfidential o.value then 33 - 9 else 0) ≤ valueLength o.value := by
    cases o.value <;> simp [valueIsConfidential, valueLength]
  have hnonce : (if nonceIsConfidential o.nonce then 33 - 1 else 0) ≤ nonceLength o.nonce := by
    cases o.nonce <;> simp [nonceIsConfidential, nonceLength]
  unfold baseSize
  omega

theorem discounted_add_discount {flag : Bool} (h : flag = false → o.witness.isEmpty = true) :
    o.discounted flag + o.discount = 4 * o.baseSize + if flag then o.witnessSize else 0 := by
  have hbase := o.confidential_le_baseSize
  have htwo := o.two_le_witnessSize
  unfold discounted discount
  cases flag with
  | true =>
    simp only [if_true]
    split_ifs at hbase ⊢ <;> omega
  | false =>
    have hempty := witnessSize_of_isEmpty (h rfl)
    simp only [Bool.false_eq_true, if_false]
    split_ifs at hbase ⊢ <;> omega

/-- An output in the weight that is asked for. -/
def weighed (ctDiscount flag : Bool) : Nat :=
  if ctDiscount then o.discounted flag else 4 * o.baseSize + if flag then o.witnessSize else 0

theorem Settled.weighed_le {o o' : TxOut} (h : Settled o o') (ctDiscount : Bool) {flag flag' : Bool}
    (hflag : flag' = true → flag = true) :
    o'.weighed ctDiscount flag' ≤ o.weighed ctDiscount flag := by
  have hbase : o'.baseSize = o.baseSize := by
    rw [baseSize, baseSize, h.asset, h.valueLength, h.nonceLength, h.scriptPubkey]
  have hwitness := h.witness
  unfold weighed discounted
  rw [hbase, h.value, h.nonce]
  cases flag' with
  | false => cases ctDiscount <;> simp
  | true =>
    rw [hflag rfl]
    cases ctDiscount with
    | false => simpa using hwitness
    | true => exact le_refl _

end TxOut

/-! ## The weight of a transaction -/

namespace Transaction

theorem foldl_discount (l : List TxOut) (n : Nat) :
    l.foldl (fun weight o => weight - o.discount) n = n - (l.map TxOut.discount).sum := by
  induction l generalizing n with
  | nil => rfl
  | cons o l ih =>
    rw [foldl_cons, ih, map_cons, sum_cons]
    omega

theorem sum_add_discount {l : List TxOut} {flag : Bool}
    (h : flag = false → ∀ o ∈ l, o.witness.isEmpty = true) :
    (l.map fun o => o.discounted flag).sum + (l.map TxOut.discount).sum =
      (l.map fun o => 4 * o.baseSize + if flag then o.witnessSize else 0).sum := by
  induction l with
  | nil => rfl
  | cons o l ih =>
    have hhead := o.discounted_add_discount fun hf => h hf o mem_cons_self
    have htail := ih fun hf p hp => h hf p (mem_cons_of_mem _ hp)
    simp only [map_cons, sum_cons]
    omega

theorem isEmpty_of_not_hasWitness {tx : Transaction} (h : tx.hasWitness = false) {o : TxOut}
    (ho : o ∈ tx.output) : o.witness.isEmpty = true := by
  simp only [hasWitness, Bool.or_eq_false_iff, any_eq_false, Bool.not_eq_true'] at h
  simpa using h.2 o ho

theorem weigh_eq (tx : Transaction) (ctDiscount : Bool) : tx.weigh ctDiscount =
      4 * (4 + 4 + varIntSize (UInt64.ofNat tx.input.length) +
          varIntSize (UInt64.ofNat tx.output.length) + 1) +
        (tx.input.map fun i => 4 * i.baseSize + if tx.hasWitness then i.witnessSize else 0).sum +
        (tx.output.map fun o => o.weighed ctDiscount tx.hasWitness).sum := by
  cases ctDiscount with
  | false => rfl
  | true =>
    have hsum := sum_add_discount fun hflag o (ho : o ∈ tx.output) =>
      isEmpty_of_not_hasWitness hflag ho
    have hweighed : (tx.output.map fun o => o.weighed true tx.hasWitness) =
        tx.output.map fun o => o.discounted tx.hasWitness := rfl
    rw [weigh, if_pos rfl, discountWeight, foldl_discount, hweighed]
    simp only [scaledSize]
    omega

theorem realWeight_eq (tx : Transaction) : tx.realWeight = tx.weight + 4 * tx.issuances :=
  (tx.scaledSize_add_issuances 3).symm

theorem realWeigh_eq {tx : Transaction} (h : tx.issuances = 0) (ctDiscount : Bool) :
    tx.realWeigh ctDiscount = tx.weigh ctDiscount := by
  have hweight : tx.realWeight = tx.weight := by rw [realWeight_eq, h, Nat.mul_zero, Nat.add_zero]
  rw [realWeigh, weigh, discountWeight, foldl_discount, hweight]
  rfl

end Transaction

/-! ## After the amounts are set -/

namespace Settled

variable {tx tx' : Transaction}

theorem exists_weighed {kept l : List TxOut} (h : List.Forall₂ TxOut.Settled kept l) {o' : TxOut}
    (ho' : o' ∈ l) : ∃ o ∈ kept, o.Settled o' := by
  induction h with
  | nil => cases ho'
  | cons hhead htail ih =>
    rcases mem_cons.1 ho' with rfl | ho'
    · exact ⟨_, mem_cons_self, hhead⟩
    · obtain ⟨o, ho, hrel⟩ := ih ho'
      exact ⟨o, mem_cons_of_mem _ ho, hrel⟩

theorem hasWitness_of (h : Settled tx tx') (hw : tx'.hasWitness = true) : tx.hasWitness = true := by
  obtain ⟨sequence, hinput⟩ := h.input
  obtain ⟨kept, hkept, hsettled⟩ := h.output
  simp only [Transaction.hasWitness, Bool.or_eq_true, any_eq_true] at hw ⊢
  rcases hw with hin | hout
  · left
    obtain ⟨i', hi', hw⟩ := hin
    rw [hinput] at hi'
    obtain ⟨i, hi, rfl⟩ := mem_map.1 hi'
    exact ⟨i, hi, hw⟩
  · right
    obtain ⟨o', ho', hw⟩ := hout
    obtain ⟨o, ho, hrel⟩ := exists_weighed hsettled ho'
    exact ⟨o, hkept.subset ho, hrel.isEmpty ▸ hw⟩

theorem varIntSize_le {m n : Nat} (h : m ≤ n) (hn : n < 2 ^ 64) :
    varIntSize (UInt64.ofNat m) ≤ varIntSize (UInt64.ofNat n) := by
  unfold varIntSize
  rw [UInt64.toNat_ofNat_of_lt' hn, UInt64.toNat_ofNat_of_lt' (lt_of_le_of_lt h hn)]
  split_ifs <;> omega

theorem weigh_le (h : Settled tx tx') (ctDiscount : Bool) :
    tx'.weigh ctDiscount ≤ tx.weigh ctDiscount := by
  obtain ⟨sequence, hinput⟩ := h.input
  obtain ⟨kept, hkept, hsettled⟩ := h.output
  have hcount : varIntSize (UInt64.ofNat tx'.output.length) ≤
      varIntSize (UInt64.ofNat tx.output.length) :=
    varIntSize_le (hsettled.length_eq ▸ hkept.length_le) h.length
  have hinputs : (tx'.input.map fun i =>
        4 * i.baseSize + if tx'.hasWitness then i.witnessSize else 0).sum ≤
      (tx.input.map fun i => 4 * i.baseSize + if tx.hasWitness then i.witnessSize else 0).sum := by
    rw [hinput, map_map]
    apply sum_le_sum
    intro i _
    refine Nat.add_le_add (le_refl _) ?_
    by_cases hw : tx'.hasWitness = true
    · rw [if_pos hw, if_pos (h.hasWitness_of hw)]
      exact le_refl _
    · rw [if_neg hw]
      exact Nat.zero_le _
  have houtputs : (tx'.output.map fun o => o.weighed ctDiscount tx'.hasWitness).sum ≤
      (tx.output.map fun o => o.weighed ctDiscount tx.hasWitness).sum := by
    calc (tx'.output.map fun o => o.weighed ctDiscount tx'.hasWitness).sum
        ≤ (kept.map fun o => o.weighed ctDiscount tx.hasWitness).sum := by
          apply List.Forall₂.sum_le_sum
          rw [forall₂_map_left_iff, forall₂_map_right_iff]
          exact hsettled.flip.imp fun o' o hrel => hrel.weighed_le ctDiscount h.hasWitness_of
      _ ≤ (tx.output.map fun o => o.weighed ctDiscount tx.hasWitness).sum :=
          (hkept.map _).sum_le_sum fun _ _ => Nat.zero_le _
  rw [Transaction.weigh_eq, Transaction.weigh_eq, show tx'.input.length = tx.input.length by
    rw [hinput, length_map]]
  omega

end Settled

/-! ## What is returned -/

theorem forall₂_mapIdx {α β γ δ : Type} {R : α → β → Prop} {S : γ → δ → Prop} {l : List α}
    {l' : List β} {f : Nat → α → γ} {g : Nat → β → δ} (h : List.Forall₂ R l l')
    (hfg : ∀ j a b, R a b → S (f j a) (g j b)) : List.Forall₂ S (l.mapIdx f) (l'.mapIdx g) := by
  induction h generalizing f g with
  | nil => exact .nil
  | cons hhead _ ih =>
    rw [mapIdx_cons, mapIdx_cons]
    exact .cons (hfg 0 _ _ hhead) (ih fun j a b hab => hfg (j + 1) a b hab)

theorem extractOutput_settled {o o' : PsetOutput} {f f' : Blinded} (h : o.Reset o')
    (hsize : f'.size ≤ f.size) : (extractOutput f o).Settled (extractOutput f' o') := by
  obtain ⟨amount, hamount, rfl⟩ := h
  unfold extractOutput
  cases hkey : o.blindingKey with
  | some key => exact ⟨rfl, rfl, rfl, rfl, rfl, rfl, rfl, hsize⟩
  | none =>
    have hvalue : ∀ {a a' : Option UInt64}, a'.isSome = a.isSome →
        valueLength ((a'.map Value.explicit).getD .null) =
            valueLength ((a.map Value.explicit).getD .null) ∧
          valueIsConfidential ((a'.map Value.explicit).getD .null) =
            valueIsConfidential ((a.map Value.explicit).getD .null) := by
      intro a a' h
      cases a <;> cases a' <;> simp_all [valueLength, valueIsConfidential]
    obtain ⟨hlength, hconfidential⟩ := hvalue hamount
    exact ⟨rfl, hlength, hconfidential, rfl, rfl, rfl, rfl, le_refl _⟩

theorem extractOutput_unkeyed {o : PsetOutput} (h : o.blindingKey = none) (f f' : Blinded) :
    extractOutput f o = extractOutput f' o := by
  simp only [extractOutput, h, Option.isSome_none, Bool.false_eq_true, if_false]

theorem resettled_mapIdx {outs outs' : List PsetOutput} {first last : Nat → Blinded}
    (h : Resettled outs outs') (hsize : ∀ j, (last j).size ≤ (first j).size) :
    ∃ kept, List.Sublist kept (outs.mapIdx fun j o => extractOutput (first j) o) ∧
      List.Forall₂ TxOut.Settled kept (outs'.mapIdx fun j o => extractOutput (last j) o) := by
  obtain ⟨kept, gone, fee, rfl, -, hkey, hreset⟩ := h
  refine ⟨(kept ++ [fee]).mapIdx fun j o => extractOutput (first j) o, ?_,
    forall₂_mapIdx hreset fun j o o' h => extractOutput_settled h (hsize j)⟩
  rw [mapIdx_append, mapIdx_append, mapIdx_append]
  refine (Sublist.refl _).append ?_
  -- the fee is not blinded, so its place does not matter
  have hfee : ([fee].mapIdx fun j o => extractOutput (first (j + kept.length)) o) =
      [fee].mapIdx fun j o => extractOutput (first (j + gone.length + kept.length)) o := by
    rw [mapIdx_singleton, mapIdx_singleton, extractOutput_unkeyed hkey]
  rw [hfee]
  exact sublist_append_right _ _

namespace Run

variable (r : Run)

/-- **What is returned is the draft with other amounts.** -/
theorem settled : Settled (extractTx r.first r.draft.pset) r.tx := by
  obtain ⟨b', hrun⟩ := TxBuilder.finishInner_ok r.finishes
  rw [r.notMake, r.notTake] at hrun
  obtain ⟨f⟩ := TxBuilder.finishPlain_ok hrun
  obtain ⟨-, hdraft⟩ := EStateM.Result.ok.inj (f.weighs.symm.trans r.weighed)
  rw [← hdraft]
  refine ⟨?_, ?_, resettled_mapIdx f.resettled r.proofs⟩
  · obtain ⟨kept, gone, fee, houts, hgone, -, hreset⟩ := f.resettled
    have hlength := hreset.length_eq
    have hshort := r.length
    simp only [extractTx, length_mapIdx, houts, length_append, length_singleton] at hlength ⊢
    omega
  · refine ⟨fun i => if r.t.enableRbf then TxBuilder.enableRbfNoLocktime else i.sequence, ?_⟩
    simp only [tx, extractTx, f.inputs, f.draftInputs, map_map]
    refine map_congr_left fun i _ => ?_
    cases hrbf : r.t.enableRbf <;> simp [extractInput, TxBuilder.signal, hrbf]

theorem weight_eq :
    r.weight = r.draft.inpWeight + (extractTx r.first r.draft.pset).weigh r.t.ctDiscount := by
  obtain ⟨_, b₁, -, h⟩ := bind_ok_iff.1 r.weighed
  obtain ⟨_, b₂, -, h⟩ := bind_ok_iff.1 h
  obtain rfl := weight_ok h
  replace h := get_bind_ok_iff.1 h
  obtain ⟨weight, hweigh, h⟩ := liftExcept_bind_ok_iff.1 h
  obtain ⟨hweight, -⟩ := pure_ok_iff.1 h
  rw [r.weighs, r.blinds] at hweigh
  cases hweigh
  exact hweight.symm

end Run

/-! ## Real weights -/

/-- The fee is paid for at least the weight of the transaction, whenever it is returned. -/
def FeeCovers (tx : Transaction) : Prop :=
  ∀ r : Run, r.tx = tx → tx.realWeigh r.t.ctDiscount ≤ r.weight

/-- **Real weights.** The size and the weight are those of the serialisation, and the fee is paid
for no less, if and only if no input issues. -/
theorem weight_real_iff (tx : Transaction) :
    (tx.size = tx.consensusEncode.length ∧ tx.weight = tx.realWeight ∧ FeeCovers tx) ↔
      ∀ i ∈ tx.input, i.hasIssuance = false := by
  have hissues : tx.issuances = 0 ↔ ∀ i ∈ tx.input, i.hasIssuance = false := by
    simp [Transaction.issuances, countP_eq_zero]
  have hsize := tx.size_add_issuances
  rw [← hissues]
  constructor
  · intro h
    have heq : tx.size = tx.consensusEncode.length := h.1
    omega
  · intro hzero
    refine ⟨?_, ?_, ?_⟩
    · omega
    · rw [Transaction.realWeight_eq, hzero, Nat.mul_zero, Nat.add_zero]
    · rintro r rfl
      rw [Transaction.realWeigh_eq hzero, r.weight_eq]
      exact le_trans (r.settled.weigh_le r.t.ctDiscount) (Nat.le_add_left _ _)

def issuing : Transaction where
  version := 2
  lockTime := 0
  input :=
    [{ previousOutput := ⟨1, 0⟩
       isPegin := false
       scriptSig := []
       sequence := 0xffffffff
       assetIssuance := { AssetIssuance.null with amount := .explicit 1 }
       witness := .empty }]
  output :=
    [{ asset := .explicit 2
       value := .explicit 1
       nonce := .null
       scriptPubkey := [0x51]
       witness := .empty },
     { asset := .explicit 3
       value := .explicit 250
       nonce := .null
       scriptPubkey := []
       witness := .empty }]

/-- The denomination byte is not counted. -/
theorem issuing_denomination_not_counted : issuing.size + 1 = issuing.consensusEncode.length ∧
      issuing.weight + 4 = issuing.realWeight := by
  have hone : issuing.issuances = 1 := by decide
  refine ⟨?_, ?_⟩
  · rw [← issuing.size_add_issuances, hone]
  · rw [issuing.realWeight_eq, hone]

end Consensus

end Swk
