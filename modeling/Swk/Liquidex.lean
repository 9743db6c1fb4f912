import Swk.Scan
import Swk.TxBuilder

/-!
# LiquiDEX

Making a swap proposal and taking one, following `tx_builder.rs` and `liquidex.rs`. A maker offers
one coin for an amount of another asset in a transaction of one input and one output. The taker
adds an output for what the maker offers, coins for what the maker wants, all policy coins, and
change and fee.
-/

namespace Swk

/-! ## Making a proposal -/

def singlePlusAnyoneCanPay : UInt32 := 0x83

namespace TxBuilder

def markMakerInput (secrets : TxOutSecrets) : BuildM PsetInput :=
  modifyInput 0 fun input =>
    { input with
      abf := some secrets.assetBf
      sighashType := some singlePlusAnyoneCanPay }

/-- The offset between the blinding of the maker's input and that of the output. -/
def scalarOffset (input : TxOutSecrets) (value : UInt64) (abf vbf : Tweak) : Tweak :=
  let offset (v : UInt64) (abf vbf : Tweak) : Nat := abf.val * v.toNat + vbf.val
  ⟨(offset input.value input.assetBf input.valueBf + curveOrder -
      offset value abf vbf % curveOrder) % curveOrder,
    Nat.mod_lt _ (by decide)⟩

def finishLiquidexMake (x : Builder) (w : Wollet) (t : TxBuilder) : BuildM Pset := do
  match t.selectedUtxos, t.recipients with
  | some [outpoint], [recipient] =>
    let utxos ← liftExcept w.utxosMap
    match utxos.lookup outpoint with
    | none => throw (.missingWalletUtxo outpoint)
    | some utxo => do
        let _ ← w.addInput x t.addInputRangeproofs utxo
        let _ ← markMakerInput utxo.unblinded
        addOutput recipient
        match recipient.blindingPubkey with
        | none => throw (.liquidexError .makerInvalidParams)
        | some _ => do
            let r ← liftExcept (x.blindMaker utxo.unblinded recipient)
            modify fun b =>
              { b with
                pset :=
                  { b.pset with
                    outputs := b.pset.outputs.modify 0 fun o => { o with abf := some r.1 }
                    scalars := [scalarOffset utxo.unblinded recipient.satoshi r.1 r.2] } }
            let b ← get
            liftExcept (x.addDetails b.pset)
            pure b.pset
  | _, _ => throw (.liquidexError .makerInvalidParams)

end TxBuilder

/-! ## Taking a proposal -/

/-- `Input::from_txin`: an input with an issuance has the high bit of its output index set. The bit
of a peg-in is left out. -/
def PsetInput.fromTxin (txin : TxIn) : PsetInput :=
  if txin.hasIssuance then
    { PsetInput.fromPrevout ⟨txin.previousOutput.txid, txin.previousOutput.vout ||| 2 ^ 31⟩ with
      issuanceBlindingNonce := some txin.assetIssuance.assetBlindingNonce
      issuanceAssetEntropy := some txin.assetIssuance.assetEntropy
      issuanceValueAmount := txin.assetIssuance.amount.explicit?
      issuanceInflationKeys := txin.assetIssuance.inflationKeys.explicit? }
  else PsetInput.fromPrevout txin.previousOutput

namespace LiquidexProposal

/-- The input and the output of a PSET made from a proposal. -/
def psetParts (txin : TxIn) (txout : TxOut) (input output : LiquidexTxOutSecrets) :
    PsetInput × PsetOutput :=
  ({ PsetInput.fromTxin txin with
      amount := some input.satoshi
      asset := some input.asset
      abf := some input.assetBlinder },
    { scriptPubkey := txout.scriptPubkey
      amount := some output.satoshi
      asset := some output.asset
      blindingKey := none
      blinderIndex := some 0
      abf := some output.assetBlinder })

/-- `to_pset`. A proposal without the openings it should state makes the code panic. -/
def toPset (p : LiquidexProposal) : Except Error Pset := do
  let tx ← p.tx
  match tx.input with
  | [txin] =>
    match tx.output with
    | [txout] =>
      match p.scalars with
      | [scalar] =>
        match p.inputs with
        | input :: _ =>
          if p.signed then
            match p.outputs with
            | output :: _ =>
              let parts := psetParts txin txout input output
              pure ⟨[parts.1], [parts.2], [scalar]⟩
            | [] => throw (.expectFailed "index out of bounds")
          else throw (.liquidexError .missingSignature)
        | [] => throw (.expectFailed "index out of bounds")
      | _ => throw (.liquidexError .unexpectedScalars)
    | _ => throw (.liquidexError .unexpectedOutputs)
  | _ => throw (.liquidexError .unexpectedInputs)

theorem toPset_ok {p : LiquidexProposal} {pset : Pset} (h : p.toPset = .ok pset) :
    ∃ tx txin txout scalar input inputs output outputs, p.tx = .ok tx ∧ tx.input = [txin] ∧
      tx.output = [txout] ∧ p.scalars = [scalar] ∧ p.inputs = input :: inputs ∧
      p.outputs = output :: outputs ∧
      pset = ⟨[(psetParts txin txout input output).1], [(psetParts txin txout input output).2],
        [scalar]⟩ := by
  obtain ⟨tx, htx, h⟩ := except_bind_ok_iff.1 h
  rcases hin : tx.input with _ | ⟨txin, _ | _⟩ <;> rw [hin] at h <;> try cases h
  rcases hout : tx.output with _ | ⟨txout, _ | _⟩ <;> rw [hout] at h <;> try cases h
  rcases hscalars : p.scalars with _ | ⟨scalar, _ | _⟩ <;> rw [hscalars] at h <;> try cases h
  rcases hinputs : p.inputs with _ | ⟨input, inputs⟩ <;> rw [hinputs] at h <;> try cases h
  cases hsigned : p.signed <;> rw [hsigned] at h
  · cases h
  rcases houtputs : p.outputs with _ | ⟨output, outputs⟩ <;> rw [houtputs] at h <;> cases h
  exact ⟨tx, txin, txout, scalar, input, inputs, output, outputs, htx, hin, hout, rfl, rfl, rfl,
    rfl⟩

end LiquidexProposal

namespace TxBuilder

structure MakerSide where
  asset : AssetId
  satoshi : UInt64
  abf : Tweak

/-- The maker's side of an input or output; all three fields are there. -/
def makerSide (asset : Option AssetId) (amount : Option UInt64) (abf : Option Tweak) :
    Except Error MakerSide :=
  match asset, amount, abf with
  | some asset, some satoshi, some abf => .ok ⟨asset, satoshi, abf⟩
  | _, _, _ => .error (.liquidexError .takerInvalidParams)

/-- The opening the maker's input gets: a value blinding factor that cancels the asset's. -/
def makerSecrets (m : MakerSide) : TxOutSecrets :=
  ⟨m.asset, m.abf, m.satoshi, ⟨(curveOrder - m.abf.val * m.satoshi.toNat % curveOrder) % curveOrder,
      Nat.mod_lt _ (by decide)⟩⟩

variable (x : Builder) (w : Wollet) (t : TxBuilder)

/-- Coins for what the maker wants, if it is not the policy asset, and their change. -/
def payMaker (utxos : HashMap OutPoint WalletTxOut) (wanted : MakerSide) : BuildM Unit :=
  if wanted.asset ≠ x.env.policyAsset then do
    let satoshiIn ← t.addCoinsUntil x w false wanted.satoshi (coinsOf x utxos wanted.asset) 0
    addAssetChange x w (satoshiIn, wanted.satoshi) wanted.asset
  else pure ()

/-- Set the blinder indexes: none for the maker's output, the taker for the others but the fee. -/
def markOutputs : BuildM Unit :=
  modify fun b =>
    { b with
      pset :=
        { b.pset with
          outputs := b.pset.outputs.zipIdx.map fun e =>
            if e.2 = 0 then { e.1 with blinderIndex := none }
            else if e.1.scriptPubkey.isEmpty then e.1
            else { e.1 with blinderIndex := some 1 } } }

/-- What comes in and goes out of the policy asset before the taker's own coins. -/
def takerSums (policyAsset : AssetId) (offered wanted : MakerSide) : UInt64 × UInt64 :=
  (if offered.asset = policyAsset then offered.satoshi else 0,
    (if wanted.asset = policyAsset then wanted.satoshi else 0) +
      if offered.asset = policyAsset then offered.satoshi else 0)

/-- The policy change with a temporary fee, and the names of the blinders. -/
def settleDraft (wanted : MakerSide) (sums : UInt64 × UInt64) : BuildM Unit := do
  ensureElse (!(sums.1 ≤ sums.2 + tempFee : Bool))
    (.insufficientFunds (sums.2 + tempFee + 1 - sums.1) x.env.policyAsset false)
  addChange x w (sums.1 - sums.2 - tempFee) x.env.policyAsset
  pushOutput (.newExplicit [] tempFee x.env.policyAsset)
  let b ← get
  liftExcept (x.surjectionProof wanted.asset wanted.abf (b.inpTxoutSec.toPairs.map (·.2)))
  markOutputs

/-- Weigh the transaction, put change and fee right, and blind. -/
def chargeFee (sums : UInt64 × UInt64) : BuildM Unit := do
  let b ← get
  let txWeight ← liftExcept (x.weigh b.pset b.inpTxoutSec true t.ctDiscount)
  let fee := x.calculateFee (b.inpWeight + txWeight) t.feeRate
  ensureElse (!(sums.1 ≤ sums.2 + fee : Bool))
    (.insufficientFunds (sums.2 + fee + 1 - sums.1) x.env.policyAsset false)
  let n := b.pset.outputs.length
  setAmount (n - 2) (sums.1 - sums.2 - fee)
  setAmount (n - 1) fee
  let b ← get
  liftExcept (x.blindLast b.pset b.inpTxoutSec)

/-- `finish_liquidex_take` on the parts of the proposal's PSET, up to the fee; the sums of the
policy asset. -/
def takeDraft (utxos : HashMap OutPoint WalletTxOut) (input : PsetInput) (output : PsetOutput) :
    BuildM (UInt64 × UInt64) := do
  let offered ← liftExcept (makerSide input.asset input.amount input.abf)
  let wanted ← liftExcept (makerSide output.asset output.amount output.abf)
  modify fun b => { b with inpTxoutSec := b.inpTxoutSec.insert 0 (makerSecrets offered) }
  let addressee ← w.addresseeExternal x offered.satoshi offered.asset
  addOutput addressee
  t.payMaker x w utxos wanted
  let sums := takerSums x.env.policyAsset offered wanted
  let satoshiIn ← t.addCoins x w (coinsOf x utxos x.env.policyAsset) sums.1
  settleDraft x w wanted (satoshiIn, sums.2)
  pure (satoshiIn, sums.2)

def completeTake (sums : UInt64 × UInt64) : BuildM Pset := do
  t.chargeFee x sums
  let b ← get
  liftExcept (x.addDetails b.pset)
  pure b.pset

def takeProposal (utxos : HashMap OutPoint WalletTxOut) (input : PsetInput)
    (output : PsetOutput) : BuildM Pset := do
  let sums ← t.takeDraft x w utxos input output
  t.completeTake x sums

/-- Read the proposal and the wallet, and go on with the parts of the proposal. -/
def withProposal {α : Type}
    (k : HashMap OutPoint WalletTxOut → PsetInput → PsetOutput → BuildM α) : BuildM α := do
  match t.liquidexProposals with
  | [proposal] => do
      let pset ← liftExcept proposal.toPset
      let change ← liftExcept (w.innerAddress x.env .internal none)
      let receive ← liftExcept (w.innerAddress x.env .external none)
      modify fun b =>
        { b with
          pset := pset
          lastUnusedInternal := change.2
          lastUnusedExternal := receive.2 }
      let utxos ← liftExcept w.utxosMap
      match pset.inputs, pset.outputs with
      | [input], [output] => k utxos input output
      | _, _ => throw (.liquidexError .takerInvalidParams)
  | _ => throw (.liquidexError .takerInvalidParams)

def finishLiquidexTake : BuildM Pset := t.withProposal x w (t.takeProposal x w)

/-! ## Finishing -/

def finishInner : Except Error Pset :=
  let finish :=
    if t.isLiquidexMake then t.finishLiquidexMake x w
    else if !t.liquidexProposals.isEmpty then t.finishLiquidexTake x w
    else t.finishPlain x w
  match finish (start w) with
  | .ok pset _ => .ok pset
  | .error e _ => .error e

end TxBuilder

/-! ## A concrete builder -/

namespace Concrete

/-- A builder that computes: the fee of 100 satoshi per 1000 virtual bytes, maps iterated as they
are, and arithmetic for hashes. -/
def builder (env : Env) : Builder where
  env := env
  maxWeightToSatisfy := 108
  hash :=
    { generateAssetEntropy := fun o contractHash => o.txid + BitVec.ofNat 256 o.vout + contractHash
      fromEntropy := fun entropy => 2 * entropy
      reissuanceTokenFromEntropy := fun entropy _ => 2 * entropy + 1 }
  order := ⟨id, fun _ => .refl _, id, fun _ => .refl _, id, fun _ => .refl _⟩
  amp0Address := fun _ => .error .amp0AddressError
  blindProofs := fun _ _ => .ok ()
  weigh := fun pset _ _ _ => .ok (164 * pset.inputs.length + 280 * pset.outputs.length)
  calculateFee := fun weight _ => UInt64.ofNat ((weight + 39) / 40)
  -- elements 0.26 does not know the denomination of an issuance
  reads26 := fun pset => pset.inputs.all fun i =>
    i.nonWitnessUtxo.all fun tx => tx.input.all fun j => !j.hasIssuance
  blindLast := fun _ _ => .ok ()
  addDetails := fun _ => .ok ()
  blindMaker := fun _ _ => .ok (.zero, .zero)
  surjectionProof := fun _ _ _ => .ok ()

def finished (x : Builder) (w : Wollet) (t : TxBuilder) : Pset :=
  match t.finishInner x w with
  | .ok pset => pset
  | .error _ => .new

def finishes (x : Builder) (w : Wollet) (t : TxBuilder) : Bool :=
  match t.finishInner x w with
  | .ok _ => true
  | .error _ => false

theorem finishInner_finished {x : Builder} {w : Wollet} {t : TxBuilder}
    (h : finishes x w t = true) : t.finishInner x w = .ok (finished x w t) := by
  unfold finishes at h
  unfold finished
  cases hfinish : t.finishInner x w with
  | ok pset => rfl
  | error e =>
    rw [hfinish] at h
    cases h

variable {α : Type}

def arrival (m : BuildM α) (b : Build) (a : α) : α × Build :=
  match m b with
  | .ok r b' => (r, b')
  | .error _ b' => (a, b')

def arrives (m : BuildM α) (b : Build) : Bool :=
  match m b with
  | .ok _ _ => true
  | .error _ _ => false

theorem run_arrival {m : BuildM α} {b : Build} (a : α) (h : arrives m b = true) :
    m b = .ok (arrival m b a).1 (arrival m b a).2 := by
  unfold arrives at h
  unfold arrival
  cases hrun : m b with
  | ok r b' => rfl
  | error e b' =>
    rw [hrun] at h
    cases h

def value (e : Except Error α) (a : α) : α :=
  match e with
  | .ok a => a
  | .error _ => a

theorem eq_ok_value {e : Except Error α} {a : α} (h : e.isOk = true) : e = .ok (value e a) := by
  cases e with
  | ok a => rfl
  | error _ => cases h

def script (n : UInt8) : Script := [0x51, 0x02, 0x00, n]

def funded (env : Env) (txs : List Transaction) : Wollet :=
  let server := server env 4 txs fun _ => txs.map fun tx => ⟨env.txid tx, 0, none⟩
  updated env (scanned env server (.fresh .empty)) (.fresh .empty)

end Concrete

end Swk
