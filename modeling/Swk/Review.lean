import Swk.Backed
import Swk.PsetDetails

/-!
# What a review says of a built transaction

A PSET goes from the builder to a review, and the review should say what was built: what the
wallet pays and gets of each asset, the fee, and who else is paid. The two see different things.
The builder knows the coins it spends and the recipients it was given; the review trusts only
proofs and the descriptor.

Between them others fill in the PSET: key origins, commitments and proofs. `Sealed` says that they
do so honestly. Under it a review accepts an input or an output for exactly one reason each
(`reviewInput_ok_iff`, `reviewOutput_ok_iff`), and what it books is settled (`booked_agrees_iff`).
Together they say when the details agree with the transaction: the wallet's inputs and outputs
must all be blinded. The builder does not see to that, as explicit coins are ordinary funds here
and their change is explicit.
-/

namespace Swk

open Concrete List

/-! ## Scripts of the wallet -/

/-- Some chain of the descriptor derives the script. -/
def ConfidentialDescriptor.Derives (c : ConfidentialDescriptor) (script : Script) : Prop :=
  ∃ single ∈ c.singles, ∃ index r, single.derive index = .ok r ∧ r.1 = script

/-- Key origins for a script: at the end of every path all chains derive, and at the end of one
of them they derive the script. -/
structure Attached (c : ConfidentialDescriptor) (script : Script) (paths : List DerivationPath) :
    Prop where
  derives : ∀ path ∈ paths, ∀ i, path.getLast? = some i →
    ∀ single ∈ c.singles, ∃ r, single.derive i.toU32 = .ok r
  found : ∃ path ∈ paths, ∃ i, path.getLast? = some i ∧
    ∃ single ∈ c.singles, ∃ r, single.derive i.toU32 = .ok r ∧ r.1 = script

section Scripts

variable {c : ConfidentialDescriptor} {script : Script}

theorem derivesAt_true {index : UInt32} {l : List SingleDescriptor}
    (h : derivesAt script index l = .ok true) :
    ∃ single ∈ l, ∃ r, single.derive index = .ok r ∧ r.1 = script := by
  induction l with
  | nil => cases h
  | cons single l ih =>
    obtain ⟨r, hr, h⟩ := except_bind_ok_iff.1 h
    by_cases hs : r.1 = script
    · exact ⟨single, mem_cons_self, r, hr, hs⟩
    · rw [if_neg hs] at h
      obtain ⟨single', hmem, hfound⟩ := ih h
      exact ⟨single', mem_cons_of_mem _ hmem, hfound⟩

theorem derivesAt_ok {index : UInt32} {l : List SingleDescriptor}
    (h : ∀ single ∈ l, ∃ r, single.derive index = .ok r) : ∃ b, derivesAt script index l = .ok b ∧
      ((∃ single ∈ l, ∃ r, single.derive index = .ok r ∧ r.1 = script) → b = true) := by
  induction l with
  | nil =>
    refine ⟨false, rfl, ?_⟩
    rintro ⟨single, hmem, -⟩
    exact absurd hmem not_mem_nil
  | cons single l ih =>
    obtain ⟨r, hr⟩ := h single mem_cons_self
    obtain ⟨b, hb, hfound⟩ := ih fun s hs => h s (mem_cons_of_mem _ hs)
    rw [derivesAt, hr]
    by_cases hs : r.1 = script
    · exact ⟨true, if_pos hs, fun _ => rfl⟩
    · refine ⟨b, (if_neg hs).trans hb, ?_⟩
      rintro ⟨single', hmem, r', hr', hs'⟩
      rcases mem_cons.1 hmem with rfl | hmem
      · rw [hr] at hr'
        cases hr'
        exact absurd hs' hs
      · exact hfound ⟨single', hmem, r', hr', hs'⟩

variable {paths : List DerivationPath}

theorem isMine_true (h : isMine c script paths = .ok true) : c.Derives script := by
  induction paths with
  | nil => cases h
  | cons path paths ih =>
    unfold isMine at h
    cases hlast : path.getLast? with
    | none =>
      rw [hlast] at h
      exact ih h
    | some i =>
      rw [hlast] at h
      obtain ⟨b, hb, h⟩ := except_bind_ok_iff.1 h
      cases b with
      | false => exact ih h
      | true =>
        obtain ⟨single, hmem, hfound⟩ := derivesAt_true hb
        exact ⟨single, hmem, _, hfound⟩

theorem Attached.isMine (h : Attached c script paths) : isMine c script paths = .ok true := by
  obtain ⟨hderives, hfound⟩ := h
  induction paths with
  | nil =>
    obtain ⟨path, hpath, -⟩ := hfound
    exact absurd hpath not_mem_nil
  | cons path paths ih =>
    have hrest := ih fun p hp => hderives p (mem_cons_of_mem _ hp)
    obtain ⟨path', hpath', i', hi', hscript⟩ := hfound
    unfold Swk.isMine
    cases hlast : path.getLast? with
    | none =>
      rcases mem_cons.1 hpath' with rfl | hpath'
      · rw [hlast] at hi'
        cases hi'
      · exact hrest ⟨path', hpath', i', hi', hscript⟩
    | some i =>
      obtain ⟨b, hb, htrue⟩ : ∃ b, derivesAt script i.toU32 c.singles = .ok b ∧ _ :=
        derivesAt_ok (hderives path mem_cons_self i hlast)
      dsimp only
      rw [hb]
      cases b with
      | true => rfl
      | false =>
        rcases mem_cons.1 hpath' with rfl | hpath'
        · rw [hlast] at hi'
          cases hi'
          exact absurd (htrue hscript) Bool.false_ne_true
        · exact hrest ⟨path', hpath', i', hi', hscript⟩

theorem mine_derives (h : mine c script paths = true) : c.Derives script := by
  unfold mine at h
  cases hmine : isMine c script paths with
  | error e =>
    rw [hmine] at h
    cases h
  | ok b =>
    rw [hmine] at h
    obtain rfl : b = true := h
    exact isMine_true hmine

theorem Attached.mine (h : Attached c script paths) : mine c script paths = true := by
  rw [Swk.mine, h.isMine]
  rfl

end Scripts

/-! ## Sealing -/

section Sealing

variable (secp : Secp) (zkp : Zkp) (c : ConfidentialDescriptor) (own : Script → Prop)

/-- A blinded input has the proofs of its asset and amount. -/
def FullInput.Proved (i : FullInput) : Prop :=
  ∀ txout assetComm amountComm asset amount, i.witnessUtxo = some txout →
    txout.asset = .confidential assetComm → txout.value = .confidential amountComm →
    i.asset = some asset → i.amount = some amount →
    ∃ bap bvp, i.blindAssetProof = some bap ∧ i.blindValueProof = some bvp ∧
      zkp.blindAssetProofVerify bap asset assetComm = true ∧
      zkp.blindValueProofVerify bvp amount assetComm amountComm = true

/-- An output blinded for a key: it has commitments and proofs of its asset and amount, and the
secret of the key, and no other, opens the commitments. -/
def FullOutput.Blinded (o : FullOutput) (key : PublicKey) : Prop :=
  ∃ assetComm amountComm bap bvp, (o.assetComm = some assetComm ∧ o.blindAssetProof = some bap ∧
      o.amountComm = some amountComm ∧ o.blindValueProof = some bvp) ∧
    (∀ asset amount, o.asset = some asset → o.amount = some amount →
      zkp.blindAssetProofVerify bap asset assetComm = true ∧
      zkp.blindValueProofVerify bvp amount assetComm amountComm = true) ∧
    ∀ secret, (∃ secrets, secp.unblind o.toTxout secret = some secrets ∧
      (assetComm, amountComm) = commitments zkp secrets) ↔ secp.publicKey secret = key

/-- **A PSET filled in honestly.** The scripts of the wallet have their key origins, the inputs
the proofs that the builder adds, and the outputs are blinded for their keys, if they have one.
Issuances are not blinded. -/
structure Sealed (p : Pset) (d : FullPset) : Prop where
  inputs : d.inputs.map (·.toPsetInput) = p.inputs
  outputs : d.outputs.map (·.toPsetOutput) = p.outputs
  inputPaths : ∀ i ∈ d.inputs, ∀ txout, i.witnessUtxo = some txout → own txout.scriptPubkey →
    Attached c txout.scriptPubkey
      (derivationPaths txout.scriptPubkey i.bip32Derivation i.tapKeyOrigins)
  outputPaths : ∀ o ∈ d.outputs, own o.scriptPubkey →
    Attached c o.scriptPubkey (derivationPaths o.scriptPubkey o.bip32Derivation o.tapKeyOrigins)
  issuances : ∀ i ∈ d.inputs, i.issuanceValueComm = none ∧ i.issuanceInflationKeysComm = none
  proved : ∀ i ∈ d.inputs, i.Proved zkp
  explicit : ∀ o ∈ d.outputs, o.blindingKey = none → o.assetComm = none ∧ o.amountComm = none
  blinded : ∀ o ∈ d.outputs, ∀ key, o.blindingKey = some key → o.Blinded secp zkp key

/-- An input that a review accepts: a blinded output, at an index that does not read as a peg-in. -/
def PsetInput.Reviewable (i : PsetInput) : Prop :=
  i.previousOutput.vout.testBit 30 = false ∧
    ∃ txout, i.witnessUtxo = some txout ∧ txout.isCommitted = true

/-- An output blinded for the key that the wallet has for its script. -/
def PsetOutput.KeyedTo (o : PsetOutput) : Prop :=
  ∃ secret, c.blindingKey o.scriptPubkey = some secret ∧
    o.blindingKey = some (secp.publicKey secret)

end Sealing

/-! ## Inputs and outputs one by one -/

section Each

variable {secp : Secp} {zkp : Zkp} {c : ConfidentialDescriptor} {own : Script → Prop}
  {p : Pset} {d : FullPset}

theorem ofFields_none_not_confidential (amount : Option UInt64) :
    (Value.ofFields amount none).isConfidential = false := by
  cases amount <;> rfl

variable {asset : AssetId} {amount : UInt64} {o : FullOutput}

theorem openInput_proved {i : FullInput} {idx : Nat} {txout : TxOut}
    {assetComm amountComm : Commitment} (h : i.Proved zkp) (hwitness : i.witnessUtxo = some txout)
    (hassetComm : txout.asset = .confidential assetComm)
    (hamountComm : txout.value = .confidential amountComm) (hasset : i.asset = some asset)
    (hamount : i.amount = some amount) :
    openInput secp zkp c i idx txout assetComm amountComm = .ok (asset, amount) := by
  obtain ⟨bap, bvp, hbap, hbvp, hassetOk, hvalueOk⟩ :=
    h txout assetComm amountComm asset amount hwitness hassetComm hamountComm hasset hamount
  rw [openInput, hbap, hbvp, hasset, hamount]
  simp [hassetOk, hvalueOk]

/-- An output that a review accepts: one without a script is not blinded, and one of the wallet is
blinded for the wallet. -/
def PsetOutput.Reviewable (secp : Secp) (c : ConfidentialDescriptor) (own : Script → Prop)
    (o : PsetOutput) : Prop :=
  (o.scriptPubkey = [] → o.blindingKey = none) ∧ (own o.scriptPubkey → o.KeyedTo secp c)

noncomputable def PsetOutput.verdict (own : Script → Prop) (o : PsetOutput) (idx : Nat) :
    Reviewed :=
  open Classical in
  if o.scriptPubkey = [] then .fee (o.asset.getD 0) (o.amount.getD 0)
  else if own o.scriptPubkey then .own (o.asset.getD 0) (o.amount.getD 0)
  else .recipient (o.recipient idx)

theorem openOutput_ok_iff {key : PublicKey} (h : o.Blinded secp zkp key)
    (hasset : o.asset = some asset) (hamount : o.amount = some amount) (idx : Nat) (r : Reviewed) :
    openOutput secp zkp c o idx asset amount = .ok r ↔
      (∃ secret, c.blindingKey o.scriptPubkey = some secret ∧ secp.publicKey secret = key) ∧
        r = .own asset amount := by
  obtain ⟨assetComm, amountComm, bap, bvp, hfields, hproofs, hopens⟩ := h
  obtain ⟨hassetComm, hbap, hamountComm, hbvp⟩ := hfields
  obtain ⟨hassetOk, hvalueOk⟩ := hproofs asset amount hasset hamount
  rw [openOutput, hassetComm, hbap, hamountComm, hbvp]
  simp only [hassetOk, hvalueOk, Bool.not_true, Bool.false_eq_true, if_false]
  cases hkey : c.blindingKey o.scriptPubkey with
  | none => simp
  | some secret =>
    have hopen := hopens secret
    cases hunblind : secp.unblind o.toTxout secret with
    | none => simp [← hopen, hunblind]
    | some secrets =>
      by_cases hcomm : (assetComm, amountComm) = commitments zkp secrets
      · have hkeyed : secp.publicKey secret = key := hopen.1 ⟨secrets, hunblind, hcomm⟩
        simp only [hunblind, hcomm, ne_eq, not_true, if_false, Except.ok.injEq,
          Option.some.injEq, exists_eq_left', hkeyed, true_and]
        exact eq_comm
      · simp [← hopen, hunblind, hcomm]

variable (hsealed : Sealed secp zkp c own p d)

include hsealed

/-- **An input under review.** -/
theorem reviewInput_ok_iff {i : FullInput} (hi : i ∈ d.inputs) {txout : TxOut}
    (hasset : i.asset = some asset) (hamount : i.amount = some amount)
    (hwitness : i.witnessUtxo = some txout) (hown : own txout.scriptPubkey) (idx : Nat)
    (r : Option (AssetId × UInt64)) :
    reviewInput secp zkp c i idx = .ok r ↔ i.Reviewable ∧ r = some (asset, amount) := by
  have hmine := (hsealed.inputPaths i hi txout hwitness hown).mine
  obtain ⟨hvalue, hkeys⟩ := hsealed.issuances i hi
  have hissuance : (i.hasIssuance && (i.assetIssuance.amount.isConfidential ||
      i.assetIssuance.inflationKeys.isConfidential)) = false := by
    simp [FullInput.assetIssuance, hvalue, hkeys, ofFields_none_not_confidential]
  have hcommitted : i.Reviewable ↔ i.isPegin = false ∧ txout.isCommitted = true := by
    simp [PsetInput.Reviewable, FullInput.isPegin, hwitness]
  rw [reviewInput, hwitness, hcommitted]
  simp only [hmine, hissuance, Bool.not_true, Bool.false_eq_true, if_false]
  cases hpegin : i.isPegin with
  | true => simp
  | false =>
    cases hassetComm : txout.asset with
    | confidential assetComm =>
      cases hamountComm : txout.value with
      | confidential amountComm =>
        have hopened : openInput secp zkp c i idx txout assetComm amountComm =
            .ok (asset, amount) :=
          openInput_proved (hsealed.proved i hi) hwitness hassetComm hamountComm hasset
            hamount
        simp [TxOut.isCommitted, hassetComm, hamountComm, hopened, Except.map, eq_comm]
      | explicit | null => simp [TxOut.isCommitted, hassetComm, hamountComm]
    | explicit | null => simp [TxOut.isCommitted, hassetComm]

variable (ho : o ∈ d.outputs)

include ho

theorem Sealed.comm_iff : o.assetComm = none ∧ o.amountComm = none ↔ o.blindingKey = none := by
  refine ⟨fun h => ?_, hsealed.explicit o ho⟩
  cases hkey : o.blindingKey with
  | none => rfl
  | some key =>
    obtain ⟨assetComm, amountComm, bap, bvp, ⟨hassetComm, -⟩, -⟩ := hsealed.blinded o ho key hkey
    rw [hassetComm] at h
    cases h.1

variable (hderives : ∀ s, c.Derives s → own s)

include hderives

theorem Sealed.mine_iff :
    mine c o.scriptPubkey (derivationPaths o.scriptPubkey o.bip32Derivation o.tapKeyOrigins) =
      true ↔ own o.scriptPubkey :=
  ⟨fun h => hderives _ (mine_derives h), fun h => (hsealed.outputPaths o ho h).mine⟩

/-- **An output under review.** -/
theorem reviewOutput_ok_iff (hempty : ¬ own []) (hasset : o.asset = some asset)
    (hamount : o.amount = some amount) (idx : Nat) (r : Reviewed) :
    reviewOutput secp zkp c o idx = .ok r ↔ o.Reviewable secp c own ∧ r = o.verdict own idx := by
  have hmine := hsealed.mine_iff ho hderives
  by_cases hscript : o.scriptPubkey = []
  · have hnot : ¬ own o.scriptPubkey := hscript ▸ hempty
    have hcomm := hsealed.comm_iff ho
    have hreviewable : o.Reviewable secp c own ↔ o.assetComm = none ∧ o.amountComm = none := by
      simp [PsetOutput.Reviewable, hscript, hempty, hcomm]
    rw [reviewOutput, hreviewable, PsetOutput.verdict, if_pos hscript, hasset, hamount, hscript]
    cases o.assetComm with
    | none =>
      cases o.amountComm with
      | none =>
        simp only [List.isEmpty_nil, if_true, Except.ok.injEq, and_self, true_and, Option.getD_some]
        exact eq_comm
      | some amountComm => simp
    | some assetComm => simp
  · by_cases hown : own o.scriptPubkey
    · rw [reviewOutput, PsetOutput.Reviewable, PsetOutput.verdict, if_neg hscript, if_pos hown,
        hasset, hamount, hmine.2 hown]
      cases hkey : o.blindingKey with
      | none =>
        obtain ⟨hassetComm, -⟩ := hsealed.explicit o ho hkey
        simp [openOutput, hassetComm, hscript, hown, PsetOutput.KeyedTo, hkey]
      | some key =>
        have hopen := openOutput_ok_iff (c := c) (hsealed.blinded o ho key hkey) hasset hamount
          idx r
        have hkeyed : o.KeyedTo secp c ↔ ∃ secret, c.blindingKey o.scriptPubkey = some secret ∧
            secp.publicKey secret = key := by
          simp only [PsetOutput.KeyedTo, hkey, Option.some.injEq, eq_comm (a := key)]
        simp [hopen, hscript, hown, hkeyed]
    · have hforeign : mine c o.scriptPubkey
          (derivationPaths o.scriptPubkey o.bip32Derivation o.tapKeyOrigins) = false :=
        Bool.eq_false_iff.2 fun h => hown (hmine.1 h)
      rw [reviewOutput, PsetOutput.Reviewable, PsetOutput.verdict, if_neg hscript, if_neg hown,
        hforeign]
      simp only [List.isEmpty_iff, hscript, hown, Bool.not_false, if_true, if_false, false_imp_iff,
        and_self, true_and, Except.ok.injEq]
      exact eq_comm

end Each

/-! ## The whole PSET -/

def PsetInput.taken (i : PsetInput) : Option (AssetId × UInt64) :=
  some (i.asset.getD 0, i.amount.getD 0)

noncomputable def Pset.booked (own : Script → Prop) (p : Pset) : PsetBalance :=
  .book (p.inputs.map (·.taken)) (p.outputs.zipIdx.map fun e => e.1.verdict own e.2)

/-- What a wallet gets of an asset less what it pays: the outputs to its scripts and the inputs,
without rounding to a machine integer. -/
noncomputable def Pset.net (own : Script → Prop) (p : Pset) (a : AssetId) : Int :=
  open Classical in
  (p.outputs.map fun o =>
      if own o.scriptPubkey ∧ o.asset = some a then ((o.amount.getD 0).toNat : Int) else 0).sum -
    (p.inputs.map fun i => if i.asset = some a then ((i.amount.getD 0).toNat : Int) else 0).sum

/-- **A balance that agrees with a transaction.** The entry of each asset is its net amount, the
fees are the fee output, which comes last, and the recipients are the other outputs that do not
pay the wallet. -/
structure Agrees (own : Script → Prop) (p : Pset) (b : PsetBalance) : Prop where
  balances : ∀ a, ((b.balances.lookup a).getD 0).toInt = p.net own a
  omitted : ∀ a, b.balances.lookup a ≠ some 0
  fees : ∃ o, p.outputs.getLast? = some o ∧ o.scriptPubkey = [] ∧
    ∀ a v, b.fees.lookup a = some v ↔ o.asset = some a ∧ o.amount = some v
  recipients : b.recipients = open Classical in
    (p.outputs.dropLast.zipIdx.filter fun e => ¬ own e.1.scriptPubkey).map fun e =>
      e.1.recipient e.2

section Whole

variable {secp : Secp} {zkp : Zkp} {c : ConfidentialDescriptor} {own : Script → Prop}
  {p : Pset} {d : FullPset}

theorem Pset.Built.output_valued (h : p.Built own) :
    ∀ o ∈ p.outputs, ∃ asset amount, o.asset = some asset ∧ o.amount = some amount := by
  obtain ⟨l, q, asset, heq⟩ := h.pays
  exact outputs_valued heq

theorem getD_lookup_retain_ne_zero (m : HashMap AssetId Int64) (a : AssetId) :
    ((m.retain fun _ v => v ≠ 0).lookup a).getD 0 = (m.lookup a).getD 0 := by
  rw [HashMap.lookup_retain]
  cases m.lookup a with
  | none => rfl
  | some v =>
    by_cases hv : v = 0
    · simp [Option.filter, hv]
    · simp [Option.filter, hv]

theorem PsetOutput.verdict_own? (hempty : ¬ own []) (o : PsetOutput) (idx : Nat) :
    (o.verdict own idx).own? = open Classical in
      if own o.scriptPubkey then some (o.asset.getD 0, o.amount.getD 0) else none := by
  unfold verdict
  by_cases hscript : o.scriptPubkey = []
  · rw [if_pos hscript, if_neg (hscript ▸ hempty)]
    rfl
  · rw [if_neg hscript]
    by_cases hown : own o.scriptPubkey
    · rw [if_pos hown, if_pos hown]
      rfl
    · rw [if_neg hown, if_neg hown]
      rfl

theorem booked_omitted (a : AssetId) : (p.booked own).balances.lookup a ≠ some 0 := by
  unfold Pset.booked PsetBalance.book
  rw [HashMap.lookup_retain]
  intro h
  have hzero := (Option.filter_eq_some_iff.1 h).2
  simp at hzero

open Classical in
theorem filterMap_recipient? (l : List (PsetOutput × Nat)) :
    (l.map fun e => e.1.verdict own e.2).filterMap Reviewed.recipient? =
      ((l.filter fun e => ¬ own e.1.scriptPubkey).filter fun e => e.1.scriptPubkey ≠ []).map
        fun e => e.1.recipient e.2 := by
  induction l with
  | nil => rfl
  | cons e l ih =>
    rw [map_cons, filterMap_cons, ih]
    unfold PsetOutput.verdict
    by_cases hscript : e.1.scriptPubkey = []
    · by_cases hown : own [] <;> simp [hscript, hown, Reviewed.recipient?]
    · by_cases hown : own e.1.scriptPubkey <;> simp [hscript, hown, Reviewed.recipient?]

theorem Pset.Built.outputs_eq (h : p.Built own) :
    ∃ q asset, p.outputs = p.outputs.dropLast ++ [feeOutput q asset] := by
  obtain ⟨l, q, asset, heq⟩ := h.pays
  refine ⟨q, asset, ?_⟩
  rw [heq, dropLast_concat]

theorem sum_ite_bounds {α : Type} (cond : α → Prop) [DecidablePred cond] (amount : α → Nat)
    (l : List α) : 0 ≤ (l.map fun u => if cond u then (amount u : Int) else 0).sum ∧
      (l.map fun u => if cond u then (amount u : Int) else 0).sum ≤
        (l.map fun u => (amount u : Int)).sum := by
  induction l with
  | nil => exact ⟨le_rfl, le_rfl⟩
  | cons u l ih =>
    simp only [map_cons, sum_cons]
    split
    · omega
    · omega

open Classical in
theorem Pset.net_fits
    (hinputs : (p.inputs.map fun i => ((i.amount.getD 0).toNat : Int)).sum ≤ 2 ^ 63)
    (houtputs : (p.outputs.map fun o => ((o.amount.getD 0).toNat : Int)).sum < 2 ^ 63)
    (a : AssetId) : -2 ^ 63 ≤ p.net own a ∧ p.net own a < 2 ^ 63 := by
  have hin := sum_ite_bounds (fun i : PsetInput => i.asset = some a)
    (fun i => (i.amount.getD 0).toNat) p.inputs
  have hout := sum_ite_bounds (fun o : PsetOutput => own o.scriptPubkey ∧ o.asset = some a)
    (fun o => (o.amount.getD 0).toNat) p.outputs
  unfold Pset.net
  omega

variable (hbuilt : p.Built own)

include hbuilt

theorem sum_taken (a : AssetId) :
    ((p.inputs.map (·.taken)).reduceOption.map fun e =>
      if e.1 = a then (e.2.toNat : Int) else 0).sum =
      (p.inputs.map fun i =>
        if i.asset = some a then ((i.amount.getD 0).toNat : Int) else 0).sum := by
  rw [sum_reduceOption, map_map]
  refine congrArg sum (map_congr_left fun i hi => ?_)
  obtain ⟨asset, amount, txout, hasset, hamount, -⟩ := hbuilt.spends i hi
  simp [PsetInput.taken, hasset]

theorem booked_fees (hscripts : ∀ o ∈ p.outputs.dropLast, o.scriptPubkey ≠ []) :
    ∃ o, p.outputs.getLast? = some o ∧ o.scriptPubkey = [] ∧
      ∀ a v, (p.booked own).fees.lookup a = some v ↔ o.asset = some a ∧ o.amount = some v := by
  obtain ⟨q, asset, heq⟩ := hbuilt.outputs_eq
  have hlast : p.outputs.getLast? = some (feeOutput q asset) := by
    rw [heq]
    exact getLast?_concat
  have hrest : (p.outputs.dropLast.zipIdx.map fun e => e.1.verdict own e.2).filterMap
      Reviewed.fee? = [] := by
    rw [filterMap_eq_nil_iff]
    intro r hr
    obtain ⟨e, he, rfl⟩ := mem_map.1 hr
    have hscript := hscripts e.1 (fst_mem_of_mem_zipIdx he)
    by_cases hown : own e.1.scriptPubkey <;>
      simp [PsetOutput.verdict, hscript, hown, Reviewed.fee?]
  have hfees : (p.booked own).fees = (∅ : HashMap AssetId UInt64).entry asset 0 (· + q) := by
    unfold Pset.booked PsetBalance.book
    dsimp only
    conv_lhs => rw [heq, zipIdx_append, map_append, filterMap_append, hrest]
    simp [PsetOutput.verdict, feeOutput, PsetOutput.newExplicit, Reviewed.fee?]
  refine ⟨_, hlast, rfl, fun a v => ?_⟩
  rw [hfees, HashMap.entry]
  by_cases ha : a = asset
  · subst ha
    rw [AList.lookup_insert]
    simp [feeOutput, PsetOutput.newExplicit]
  · rw [AList.lookup_insert_ne ha]
    simp [feeOutput, PsetOutput.newExplicit, Ne.symm ha]

theorem Pset.Built.outputs_reviewable (hscripts : ∀ o ∈ p.outputs.dropLast, o.scriptPubkey ≠ []) :
    (∀ o ∈ p.outputs, o.Reviewable secp c own) ↔
      ∀ o ∈ p.outputs, own o.scriptPubkey → o.KeyedTo secp c := by
  obtain ⟨q, asset, heq⟩ := hbuilt.outputs_eq
  refine forall₂_congr fun o ho => and_iff_right fun hscript => ?_
  rw [heq] at ho
  rcases mem_append.1 ho with ho | ho
  · exact absurd hscript (hscripts o ho)
  · rw [mem_singleton.1 ho]
    rfl

theorem reviewInputs_ok_iff (hsealed : Sealed secp zkp c own p d)
    {r : List (Option (AssetId × UInt64))} :
    (d.inputs.zipIdx.mapM fun e => reviewInput secp zkp c e.1 e.2) = .ok r ↔
      (∀ i ∈ p.inputs, i.Reviewable) ∧ r = p.inputs.map (·.taken) := by
  have hfst := zipIdx_map_fst 0 d.inputs
  have heach : ∀ e ∈ d.inputs.zipIdx, ∀ b, reviewInput secp zkp c e.1 e.2 = .ok b ↔
      e.1.toPsetInput.Reviewable ∧ b = e.1.toPsetInput.taken := by
    intro e he b
    have hi := fst_mem_of_mem_zipIdx he
    have hp : e.1.toPsetInput ∈ p.inputs := hsealed.inputs ▸ mem_map_of_mem hi
    obtain ⟨asset, amount, txout, hasset, hamount, hwitness, hown⟩ := hbuilt.spends _ hp
    rw [reviewInput_ok_iff hsealed hi hasset hamount hwitness hown, PsetInput.taken, hasset,
      hamount]
    rfl
  rw [mapM_ok_iff heach, ← hsealed.inputs]
  conv_rhs => rw [← hfst]
  simp only [map_map, forall_mem_map]
  rfl

variable (hempty : ¬ own [])

include hempty

open Classical in
theorem sum_own (a : AssetId) :
    (((p.outputs.zipIdx.map fun e => e.1.verdict own e.2).filterMap Reviewed.own?).map fun e =>
      if e.1 = a then (e.2.toNat : Int) else 0).sum =
      (p.outputs.map fun o =>
        if own o.scriptPubkey ∧ o.asset = some a then ((o.amount.getD 0).toNat : Int)
        else 0).sum := by
  have hfilter (l : List Reviewed) :
      l.filterMap Reviewed.own? = (l.map Reviewed.own?).reduceOption := by
    rw [reduceOption, filterMap_map]
    rfl
  rw [hfilter, sum_reduceOption, map_map, map_map]
  conv_rhs => rw [← zipIdx_map_fst 0 p.outputs, map_map]
  refine congrArg sum (map_congr_left fun e he => ?_)
  obtain ⟨asset, amount, hasset, -⟩ := hbuilt.output_valued e.1 (fst_mem_of_mem_zipIdx he)
  by_cases hown : own e.1.scriptPubkey
  · simp [PsetOutput.verdict_own? hempty, hown, hasset]
  · simp [PsetOutput.verdict_own? hempty, hown]

theorem getD_lookup_booked (a : AssetId) :
    (((p.booked own).balances.lookup a).getD 0) = Int64.ofInt (p.net own a) := by
  have hnone : ((∅ : HashMap AssetId Int64).lookup a).getD 0 = 0 := rfl
  have hswap (x y : Int64) : 0 - x + y = y - x := by
    rw [Int64.sub_eq_add_neg, Int64.zero_add, Int64.add_comm, ← Int64.sub_eq_add_neg]
  unfold Pset.booked PsetBalance.book
  rw [getD_lookup_retain_ne_zero,
    getD_lookup_credit (fun e : AssetId × UInt64 => e.1) (fun e => e.2),
    getD_lookup_debit (fun e : AssetId × UInt64 => e.1) (fun e => e.2), sum_taken hbuilt,
    sum_own hbuilt hempty, Pset.net, Int64.ofInt_sub, hnone, hswap]

theorem booked_balances_iff :
    (∀ a, (((p.booked own).balances.lookup a).getD 0).toInt = p.net own a) ↔
      ∀ a, -2 ^ 63 ≤ p.net own a ∧ p.net own a < 2 ^ 63 := by
  refine forall_congr' fun a => ?_
  rw [getD_lookup_booked hbuilt hempty]
  constructor
  · intro h
    rw [← h]
    exact ⟨Int64.le_toInt _, Int64.toInt_lt _⟩
  · rintro ⟨hlow, hhigh⟩
    exact Int64.toInt_ofInt_of_le hlow hhigh

open Classical in
theorem booked_recipients_iff :
    (p.booked own).recipients =
        (p.outputs.dropLast.zipIdx.filter fun e => ¬ own e.1.scriptPubkey).map
          (fun e => e.1.recipient e.2) ↔
      ∀ o ∈ p.outputs.dropLast, o.scriptPubkey ≠ [] := by
  obtain ⟨q, asset, heq⟩ := hbuilt.outputs_eq
  have hbooked : (p.booked own).recipients =
      ((p.outputs.dropLast.zipIdx.filter fun e => ¬ own e.1.scriptPubkey).filter fun e =>
        e.1.scriptPubkey ≠ []).map fun e => e.1.recipient e.2 := by
    unfold Pset.booked PsetBalance.book
    rw [filterMap_recipient?]
    conv_lhs => rw [heq, zipIdx_append]
    simp [feeOutput, PsetOutput.newExplicit]
  rw [hbooked]
  constructor
  · intro h o ho hscript
    have hlength := congrArg length h
    rw [length_map, length_map, length_filter_eq_length_iff] at hlength
    obtain ⟨n, hn⟩ := getElem?_of_mem ho
    have hlisted := hlength (o, n) (by simp [mem_zipIdx_iff_getElem?, hn, hscript, hempty])
    simp [hscript] at hlisted
  · intro h
    have hall : ∀ e ∈ p.outputs.dropLast.zipIdx.filter fun e => ¬ own e.1.scriptPubkey,
        decide (e.1.scriptPubkey ≠ []) = true := by
      intro e he
      have hmem := fst_mem_of_mem_zipIdx (mem_of_mem_filter he)
      exact decide_eq_true (h e.1 hmem)
    rw [filter_eq_self.2 hall]

theorem booked_agrees_iff :
    Agrees own p (p.booked own) ↔ (∀ o ∈ p.outputs.dropLast, o.scriptPubkey ≠ []) ∧
      ∀ a, -2 ^ 63 ≤ p.net own a ∧ p.net own a < 2 ^ 63 := by
  constructor
  · intro h
    exact ⟨(booked_recipients_iff hbuilt hempty).1 h.recipients,
      (booked_balances_iff hbuilt hempty).1 h.balances⟩
  · rintro ⟨hscripts, hfits⟩
    exact ⟨(booked_balances_iff hbuilt hempty).2 hfits, booked_omitted, booked_fees hbuilt hscripts,
      (booked_recipients_iff hbuilt hempty).2 hscripts⟩

variable (hsealed : Sealed secp zkp c own p d) (hderives : ∀ s, c.Derives s → own s)

include hsealed hderives

theorem reviewOutputs_ok_iff {r : List Reviewed} :
    (d.outputs.zipIdx.mapM fun e => reviewOutput secp zkp c e.1 e.2) = .ok r ↔
      (∀ o ∈ p.outputs, o.Reviewable secp c own) ∧
        r = p.outputs.zipIdx.map fun e => e.1.verdict own e.2 := by
  have heach : ∀ e ∈ d.outputs.zipIdx, ∀ b, reviewOutput secp zkp c e.1 e.2 = .ok b ↔
      e.1.toPsetOutput.Reviewable secp c own ∧ b = e.1.toPsetOutput.verdict own e.2 := by
    intro e he b
    have ho := fst_mem_of_mem_zipIdx he
    have hp : e.1.toPsetOutput ∈ p.outputs := hsealed.outputs ▸ mem_map_of_mem ho
    obtain ⟨asset, amount, hasset, hamount⟩ := hbuilt.output_valued _ hp
    exact reviewOutput_ok_iff hsealed ho hderives hempty hasset hamount e.2 b
  have hall : (∀ o ∈ p.outputs, o.Reviewable secp c own) ↔
      ∀ e ∈ d.outputs.zipIdx, e.1.toPsetOutput.Reviewable secp c own := by
    rw [← hsealed.outputs]
    conv_lhs => rw [← zipIdx_map_fst 0 d.outputs]
    simp only [map_map, forall_mem_map]
    rfl
  rw [mapM_ok_iff heach, hall, ← hsealed.outputs, zipIdx_map, map_map]
  rfl

theorem psetBalance_ok_iff {b : PsetBalance} :
    psetBalance secp zkp c d = .ok b ↔
      (∀ i ∈ p.inputs, i.Reviewable) ∧ (∀ o ∈ p.outputs, o.Reviewable secp c own) ∧
        b = p.booked own := by
  unfold psetBalance
  simp only [except_bind_ok_iff, reviewInputs_ok_iff hbuilt hsealed,
    reviewOutputs_ok_iff hbuilt hempty hsealed hderives]
  constructor
  · rintro ⟨spent, ⟨hinputs, rfl⟩, reviewed, ⟨houtputs, rfl⟩, hb⟩
    cases hb
    exact ⟨hinputs, houtputs, rfl⟩
  · rintro ⟨hinputs, houtputs, rfl⟩
    exact ⟨_, ⟨hinputs, rfl⟩, _, ⟨houtputs, rfl⟩, rfl⟩

/-! ### The books -/

/-- **What a review can take.** Each input spends a blinded output, each output to the wallet is
blinded for the wallet, no output but the fee has an empty script, and the net amounts fit. -/
structure Pset.Reviewable (secp : Secp) (c : ConfidentialDescriptor) (own : Script → Prop)
    (p : Pset) : Prop where
  inputs : ∀ i ∈ p.inputs, i.Reviewable
  outputs : ∀ o ∈ p.outputs, own o.scriptPubkey → o.KeyedTo secp c
  scripts : ∀ o ∈ p.outputs.dropLast, o.scriptPubkey ≠ []
  fits : ∀ a, -2 ^ 63 ≤ p.net own a ∧ p.net own a < 2 ^ 63

/-- **Balance and transaction.** -/
theorem psetBalance_agrees_iff :
    (∃ b, psetBalance secp zkp c d = .ok b ∧ Agrees own p b) ↔ p.Reviewable secp c own := by
  constructor
  · rintro ⟨b, hb, hagrees⟩
    obtain ⟨hinputs, houtputs, rfl⟩ := (psetBalance_ok_iff hbuilt hempty hsealed hderives).1 hb
    obtain ⟨hscripts, hfits⟩ := (booked_agrees_iff hbuilt hempty).1 hagrees
    exact ⟨hinputs, (hbuilt.outputs_reviewable hscripts).1 houtputs, hscripts, hfits⟩
  · intro h
    have houtputs := (hbuilt.outputs_reviewable h.scripts).2 h.outputs
    exact ⟨p.booked own,
      (psetBalance_ok_iff hbuilt hempty hsealed hderives).2 ⟨h.inputs, houtputs, rfl⟩,
      (booked_agrees_iff hbuilt hempty).2 ⟨h.scripts, h.fits⟩⟩

end Whole

/-! ## Built and reviewed -/

/-- A script of the wallet: one it has seen, or one its descriptor derives. -/
def OwnScript (env : Env) (w : Wollet) (script : Script) : Prop :=
  script ∈ w.cache.paths ∨ ∃ c, env.descriptor.inner = .desc c ∧ c.Derives script

theorem Pset.Built.mono {own own' : Script → Prop} {p : Pset} (h : p.Built own)
    (hsub : ∀ s, own s → own' s) : p.Built own' where
  spends := fun i hi => by
    obtain ⟨asset, amount, txout, hasset, hamount, hwitness, hown⟩ := h.spends i hi
    exact ⟨asset, amount, txout, hasset, hamount, hwitness, hsub _ hown⟩
  pays := h.pays

/-- **Details agree with what was built.** Let a wallet build a transaction without external utxos
and let it be filled in honestly. The wallet's review of it succeeds and agrees with the
transaction exactly when the wallet has a descriptor and the review can take the transaction. An
empty script is never the wallet's, and the unspent map names the scripts of the stored outputs,
as it does after every history (`Calls.unspent_scripts_stored`). -/
theorem details_agree_iff (x : Builder) (zkp : Zkp) (w : Wollet) (t : TxBuilder) (p : Pset)
    (d : FullPset) (hmake : t.isLiquidexMake = false) (htake : t.liquidexProposals = [])
    (hexternal : t.externalUtxos = []) (hstored : w.ScriptsStored)
    (hempty : ¬ OwnScript x.env w []) (hfinish : t.finishInner x w = .ok p)
    (hsealed : ∀ c, x.env.descriptor.inner = .desc c →
      Sealed x.env.secp zkp c (OwnScript x.env w) p d) :
    (∃ details, getDetails x.env zkp x.hash d = .ok details ∧
        Agrees (OwnScript x.env w) p details.balance) ↔
      ∃ c, x.env.descriptor.inner = .desc c ∧ p.Reviewable x.env.secp c (OwnScript x.env w) := by
  have hbuilt : p.Built (OwnScript x.env w) :=
    (finishInner_built hmake htake hexternal hstored hfinish).mono fun s hs => .inl hs
  cases hinner : x.env.descriptor.inner with
  | spks l =>
    refine iff_of_false ?_ ?_
    · rintro ⟨details, hdetails, -⟩
      simp [getDetails, WolletDescriptor.ctDescriptor, hinner, Except.mapError, bind,
        Except.bind] at hdetails
    · rintro ⟨c, hc, -⟩
      cases hc
  | desc c =>
    have hagrees := psetBalance_agrees_iff hbuilt hempty (hsealed c hinner)
      fun s hs => .inr ⟨c, hinner, hs⟩
    have hok : x.env.descriptor.ctDescriptor.mapError DetailsError.wollet = .ok c := by
      rw [WolletDescriptor.ctDescriptor, hinner]
      rfl
    simp only [DescOrSpks.desc.injEq, exists_eq_left', ← hagrees]
    constructor
    · rintro ⟨details, hdetails, hagree⟩
      obtain ⟨c', hc', hdetails⟩ := except_bind_ok_iff.1 hdetails
      rw [hok] at hc'
      cases hc'
      obtain ⟨b, hb, hdetails⟩ := except_bind_ok_iff.1 hdetails
      cases hdetails
      exact ⟨b, mapError_ok_iff.1 hb, hagree⟩
    · rintro ⟨b, hb, hagree⟩
      refine ⟨⟨b, psetSignatures d, psetIssuances x.hash d⟩, ?_, hagree⟩
      exact except_bind_ok_iff.2 ⟨c, hok, except_bind_ok_iff.2 ⟨b, mapError_ok_iff.2 hb, rfl⟩⟩

namespace Reviewing

def key : PublicKey := ⟨false, 1⟩

def descriptor : ConfidentialDescriptor :=
  Concrete.descriptor (Concrete.scripts .external false fun _ => Concrete.script 0) none (some 1)

def secp : Secp where
  publicKey := fun secret => ⟨false, secret⟩
  unblind := fun out secret =>
    if out.nonce = .confidential ⟨false, secret⟩ then
      some ⟨1, ⟨2, by decide⟩, 100000, ⟨2, by decide⟩⟩
    else none

def zkp : Zkp where
  newBlinded := fun _ _ => 5
  pedersen := fun _ _ _ => 6
  blindAssetProofVerify := fun _ _ _ => true
  blindValueProofVerify := fun _ _ _ _ => true

def env : Env :=
  { Concrete.env (fun _ => 7) [] with
    secp := secp
    descriptor := ⟨.desc descriptor, false⟩ }

def x : Builder := Concrete.builder env

def explicitWallet : Wollet :=
  Concrete.funded env [⟨[], [⟨.explicit 1, .explicit 100000, .null, Concrete.script 0, none⟩]⟩]

def blindedWallet : Wollet :=
  Concrete.funded env
    [⟨[], [⟨.confidential 5, .confidential 6, .confidential key, Concrete.script 0, none⟩]⟩]

def tx : TxBuilder := { TxBuilder.new 1 with recipients := [⟨50000, Concrete.script 2, none, 1⟩] }

def filled (p : Pset) : FullPset where
  inputs := p.inputs.map fun i =>
    { toPsetInput := i
      bip32Derivation := [(key, 0, [.normal 0])]
      tapKeyOrigins := []
      partialSigs := []
      blindAssetProof := some []
      blindValueProof := some []
      issuanceValueComm := none
      issuanceInflationKeysComm := none }
  outputs := p.outputs.map fun o =>
    { toPsetOutput := o
      bip32Derivation := [(key, 0, [.normal 0])]
      tapKeyOrigins := []
      assetComm := o.blindingKey.map fun _ => 5
      amountComm := o.blindingKey.map fun _ => 6
      blindAssetProof := some []
      blindValueProof := some []
      ecdhPubkey := o.blindingKey
      valueRangeproof := none
      assetSurjectionProof := none }

theorem derives_iff (s : Script) : descriptor.Derives s ↔ s = Concrete.script 0 := by
  constructor
  · rintro ⟨single, hmem, index, r, hr, rfl⟩
    rw [mem_singleton.1 hmem] at hr
    cases hr
    rfl
  · rintro rfl
    exact ⟨descriptor.head, mem_singleton.2 rfl, 0, _, rfl, rfl⟩

theorem ownScript_iff {w : Wollet} (hpaths : w.cache.paths.keys = [Concrete.script 0])
    (s : Script) : OwnScript env w s ↔ s = Concrete.script 0 := by
  have hmem : s ∈ w.cache.paths ↔ s = script 0 := by
    rw [AList.mem_keys, hpaths, mem_singleton]
  have hdesc : (∃ c, env.descriptor.inner = .desc c ∧ c.Derives s) ↔ s = script 0 := by
    rw [← derives_iff]
    constructor
    · rintro ⟨c, hc, hs⟩
      cases hc
      exact hs
    · intro hs
      exact ⟨descriptor, rfl, hs⟩
  rw [OwnScript, hmem, hdesc, or_self]

theorem attached : Attached descriptor (Concrete.script 0)
    (derivationPaths (Concrete.script 0) [(key, 0, [.normal 0])] []) where
  derives := by
    intro path _ i _ single hmem
    rw [mem_singleton.1 hmem]
    exact ⟨_, rfl⟩
  found := ⟨[.normal 0], mem_singleton.2 rfl, .normal 0, rfl, descriptor.head,
    mem_singleton.2 rfl, _, rfl, rfl⟩

theorem filled_sealed {w : Wollet} (hpaths : w.cache.paths.keys = [Concrete.script 0]) (p : Pset) :
    Sealed env.secp zkp descriptor (OwnScript env w) p (filled p) where
  inputs := by
    rw [filled, map_map]
    exact map_id _
  outputs := by
    rw [filled, map_map]
    exact map_id _
  inputPaths := by
    intro i hi txout _ hown
    obtain ⟨j, -, rfl⟩ := mem_map.1 hi
    rw [(ownScript_iff hpaths _).1 hown]
    exact attached
  outputPaths := by
    intro o ho hown
    obtain ⟨j, -, rfl⟩ := mem_map.1 ho
    have hscript := (ownScript_iff hpaths _).1 hown
    rw [hscript]
    exact attached
  issuances := by
    intro i hi
    obtain ⟨j, -, rfl⟩ := mem_map.1 hi
    exact ⟨rfl, rfl⟩
  proved := by
    intro i hi txout assetComm amountComm asset amount _ _ _ _ _
    obtain ⟨j, -, rfl⟩ := mem_map.1 hi
    exact ⟨[], [], rfl, rfl, rfl, rfl⟩
  explicit := by
    intro o ho hkey
    obtain ⟨j, -, rfl⟩ := mem_map.1 ho
    rw [hkey]
    exact ⟨rfl, rfl⟩
  blinded := by
    intro o ho key hkey
    obtain ⟨j, -, rfl⟩ := mem_map.1 ho
    dsimp only at hkey
    refine ⟨5, 6, [], [], ⟨?_, rfl, ?_, rfl⟩, fun _ _ _ _ => ⟨rfl, rfl⟩, fun secret => ?_⟩
    · simp [hkey]
    · simp [hkey]
    · simp [env, secp, zkp, commitments, FullOutput.toTxout, FullOutput.isPartiallyBlinded, hkey,
        eq_comm]

theorem scriptsStored {w : Wollet}
    (hunspent : w.cache.unspent.toPairs = [(⟨7, 0⟩, Concrete.script 0)])
    (hstored : scriptOf w.disk.txs ⟨7, 0⟩ = some (Concrete.script 0)) : w.ScriptsStored := by
  intro o s h
  have hmem := HashMap.mem_toPairs.2 h
  rw [hunspent] at hmem
  cases mem_singleton.1 hmem
  exact hstored

/-- The explicit wallet builds a payment that its own review refuses. -/
theorem details_refused : ∃ p, tx.finishInner x explicitWallet = .ok p ∧ tx.isLiquidexMake = false ∧
      tx.liquidexProposals = [] ∧ tx.externalUtxos = [] ∧ explicitWallet.ScriptsStored ∧
      Sealed env.secp zkp descriptor (OwnScript env explicitWallet) p (filled p) ∧
      getDetails env zkp x.hash (filled p) = .error (.common (.inputNotBlinded 0)) :=
  ⟨finished x explicitWallet tx, finishInner_finished (by decide), rfl, rfl, rfl,
    scriptsStored rfl rfl, filled_sealed rfl _, rfl⟩

theorem blinded_reviewable : (Concrete.finished x blindedWallet tx).Reviewable env.secp descriptor
      (OwnScript env blindedWallet) where
  inputs := by
    have hinputs : ∀ i ∈ (finished x blindedWallet tx).inputs,
        i.previousOutput.vout.testBit 30 = false ∧
          i.witnessUtxo.map (·.isCommitted) = some true := by
      decide
    intro i hi
    obtain ⟨hvout, hwitness⟩ := hinputs i hi
    exact ⟨hvout, Option.map_eq_some_iff.1 hwitness⟩
  outputs := by
    have houtputs : ∀ o ∈ (finished x blindedWallet tx).outputs,
        o.scriptPubkey = script 0 → o.blindingKey = some key := by
      decide
    intro o ho hown
    exact ⟨1, rfl, houtputs o ho ((ownScript_iff rfl _).1 hown)⟩
  scripts := by
    decide
  fits := Pset.net_fits (by decide) (by decide)

/-- The blinded wallet can. -/
theorem details_agree_blinded :
    ∃ details, getDetails env zkp x.hash (filled (Concrete.finished x blindedWallet tx)) =
        .ok details ∧
      Agrees (OwnScript env blindedWallet) (Concrete.finished x blindedWallet tx)
        details.balance := by
  refine (details_agree_iff x zkp blindedWallet tx _ _ rfl rfl rfl (scriptsStored rfl rfl) ?_
    (finishInner_finished (by decide)) ?_).2 ⟨descriptor, rfl, blinded_reviewable⟩
  · intro h
    exact absurd ((ownScript_iff rfl []).1 h) (by decide)
  · intro c hc
    cases hc
    exact filled_sealed rfl _

end Reviewing

end Swk
