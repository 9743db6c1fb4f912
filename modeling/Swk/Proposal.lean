import Swk.Liquidex
import Swk.PsetDetails

/-!
# Validating a LiquiDEX proposal

A proposal reaches the taker as JSON from a stranger. It holds a transaction, what its input and
its output are said to open to, and a scalar. Before a proposal can be taken it is validated, which
is a matter of types in the source: only a `LiquidexProposal<Validated>` has the accessors `input`,
`output` and `to_pset`, which index the lists of openings on the ground that validation has looked
at them.

There are two ways to validate. `validate` compares the stated openings with the commitments of the
output and of the output that the input spends. `insecure_validate` looks at the output only, since
it is not given the transaction that is spent, but neither does it look at the list of the openings
of inputs. `validated_wellFormed_iff` says what this leaves open.
-/

namespace Swk

/-! ## Proposals as they arrive -/

/-- The third-party code that validation calls. -/
structure Validator where
  zkp : Zkp
  /-- `from_hex` and `deserialize`, and whether the first input has a script sig or a witness. -/
  decode : String → Except Error (Transaction × Bool)
  txid : Transaction → Txid

/-- `LiquidexTxOutSecrets`, with the proof that taking a proposal does not read. -/
structure ProvedSecrets extends LiquidexTxOutSecrets where
  blindValueProof : Option (List UInt8)

def ProvedSecrets.verify (zkp : Zkp) (s : ProvedSecrets) (txout : TxOut) : Bool :=
  match s.blindValueProof, txout.value, txout.asset with
  | some rangeproof, .confidential valueCommit, .confidential assetCommit =>
    if assetCommit ≠ zkp.newBlinded s.asset s.assetBlinder then false
    else zkp.blindValueProofVerify rangeproof s.satoshi assetCommit valueCommit
  | _, _, _ => false

/-- `LiquidexProposal<Unvalidated>`. -/
structure UnvalidatedProposal where
  version : UInt32
  tx : String
  inputs : List ProvedSecrets
  outputs : List ProvedSecrets
  scalars : List Tweak

namespace UnvalidatedProposal

variable (v : Validator) (q : UnvalidatedProposal)

def transaction : Except Error Transaction := do
  let r ← v.decode q.tx
  pure r.1

/-- `validated`: the same data under another type. -/
def validated : LiquidexProposal where
  tx := q.transaction v
  signed :=
    match v.decode q.tx with
    | .ok r => r.2
    | .error _ => false
  inputs := q.inputs.map (·.toLiquidexTxOutSecrets)
  outputs := q.outputs.map (·.toLiquidexTxOutSecrets)
  scalars := q.scalars

def getPreviousOutpoint : Except Error OutPoint := do
  let tx ← q.transaction v
  match tx.input with
  | [input] => pure input.previousOutput
  | _ => throw (.liquidexError .unexpectedInputs)

/-- `get_input`, for the given previous transaction. -/
def getInput (previousTx : Transaction) : Except Error (UInt64 × AssetId) :=
  match q.inputs with
  | [input] => do
      let prevOutpoint ← q.getPreviousOutpoint v
      require (prevOutpoint.txid = v.txid previousTx) (.liquidexError .verificationFailed)
      let txout ← okOr previousTx.output[prevOutpoint.vout]? (.liquidexError .verificationFailed)
      require (input.verify v.zkp txout) (.liquidexError .verificationFailed)
      pure (input.satoshi, input.asset)
  | _ => throw (.liquidexError .unexpectedInputs)

def getOutput : Except Error (UInt64 × AssetId) :=
  match q.outputs with
  | [output] => do
      let tx ← q.transaction v
      match tx.output with
      | [txout] => do
          require (output.verify v.zkp txout) (.liquidexError .verificationFailed)
          pure (output.satoshi, output.asset)
      | _ => throw (.liquidexError .unexpectedOutputs)
  | _ => throw (.liquidexError .unexpectedOutputs)

def validate (previousTx : Transaction) : Except Error LiquidexProposal := do
  let _ ← q.getOutput v
  let _ ← q.getInput v previousTx
  pure (q.validated v)

def insecureValidate : Except Error LiquidexProposal := do
  let _ ← q.getOutput v
  pure (q.validated v)

end UnvalidatedProposal

/-! ## The accessors -/

structure AssetAmount where
  amount : UInt64
  asset : AssetId
deriving DecidableEq

/-- The first of the stated openings. Without one the code panics. -/
def LiquidexProposal.first (openings : List LiquidexTxOutSecrets) : Except Error AssetAmount :=
  match openings with
  | opening :: _ => .ok ⟨opening.satoshi, opening.asset⟩
  | [] => .error (.expectFailed "index out of bounds")

def LiquidexProposal.input (p : LiquidexProposal) : Except Error AssetAmount := first p.inputs

def LiquidexProposal.output (p : LiquidexProposal) : Except Error AssetAmount := first p.outputs

/-! ## What a validated proposal should be -/

def Panics {α : Type} (r : Except Error α) : Prop := ∃ msg, r = .error (.expectFailed msg)

/-- The commitments of an output open to an amount of an asset. -/
def Zkp.Opens (zkp : Zkp) (txout : TxOut) (paid : AssetAmount) : Prop :=
  ∃ abf vbf, txout.asset = .confidential (zkp.newBlinded paid.asset abf) ∧ txout.value =
      .confidential (zkp.pedersen paid.amount vbf (zkp.newBlinded paid.asset abf))

/-- A blind value proof that verifies binds the value to the commitment. -/
def Zkp.BindsValue (zkp : Zkp) : Prop :=
  ∀ proof value generator commitment,
    zkp.blindValueProofVerify proof value generator commitment = true →
      ∃ vbf, commitment = zkp.pedersen value vbf generator

/-- The accessors of a proposal do not panic, its transaction has one input and one output, and
the output opens to what the proposal says. -/
structure LiquidexProposal.WellFormed (zkp : Zkp) (p : LiquidexProposal) : Prop where
  input : ¬ Panics p.input
  output : ¬ Panics p.output
  toPset : ¬ Panics p.toPset
  opens : ∃ tx txin txout paid, p.tx = .ok tx ∧ tx.input = [txin] ∧ tx.output = [txout] ∧
    p.output = .ok paid ∧ zkp.Opens txout paid

/-- The output that the only input spends is one of `previousTx`, and opens to what the proposal
says of the input. -/
def LiquidexProposal.InputOpens (v : Validator) (p : LiquidexProposal)
    (previousTx : Transaction) : Prop :=
  ∃ tx txin spent paid, p.tx = .ok tx ∧ tx.input = [txin] ∧
    txin.previousOutput.txid = v.txid previousTx ∧
    previousTx.output[txin.previousOutput.vout]? = some spent ∧
    p.input = .ok paid ∧ v.zkp.Opens spent paid

namespace LiquidexProposal

theorem first_panics_iff {l : List LiquidexTxOutSecrets} : Panics (first l) ↔ l = [] := by
  cases l with
  | nil => simp [Panics, first]
  | cons opening l => simp [Panics, first]

/-- With an opening for the input and one for the output, `to_pset` may fail but does not panic. -/
theorem toPset_not_panics {p : LiquidexProposal} {tx : Transaction} (htx : p.tx = .ok tx)
    (hinputs : p.inputs ≠ []) (houtputs : p.outputs ≠ []) : ¬ Panics p.toPset := by
  intro h
  obtain ⟨msg, h⟩ := h
  obtain ⟨input, inputs, hfirst⟩ := List.exists_cons_of_ne_nil hinputs
  obtain ⟨output, outputs, hfirst'⟩ := List.exists_cons_of_ne_nil houtputs
  rw [toPset, htx] at h
  dsimp only [bind, Except.bind] at h
  rcases hin : tx.input with _ | ⟨txin, _ | _⟩ <;> rw [hin] at h <;> try cases h
  rcases hout : tx.output with _ | ⟨txout, _ | _⟩ <;> rw [hout] at h <;> try cases h
  rcases hscalars : p.scalars with _ | ⟨scalar, _ | _⟩ <;> rw [hscalars] at h <;> try cases h
  cases hsigned : p.signed <;> rw [hfirst, hsigned] at h
  · cases h
  · rw [hfirst'] at h
    cases h

end LiquidexProposal

/-! ## What validation looks at -/

section Validation

variable {v : Validator} {q : UnvalidatedProposal}

theorem ProvedSecrets.opens_of_verify {zkp : Zkp} (hbinds : zkp.BindsValue) {s : ProvedSecrets}
    {txout : TxOut} (h : s.verify zkp txout = true) : zkp.Opens txout ⟨s.satoshi, s.asset⟩ := by
  unfold verify at h
  split at h
  · rename_i proof valueCommit assetCommit _ hvalue hasset
    split at h
    · cases h
    · rename_i hgenerator
      rw [not_not] at hgenerator
      obtain ⟨vbf, hcommit⟩ := hbinds _ _ _ _ h
      refine ⟨s.assetBlinder, vbf, ?_, ?_⟩
      · rw [hasset, hgenerator]
      · rw [hvalue, hcommit, hgenerator]
  · cases h

namespace UnvalidatedProposal

variable {r : UInt64 × AssetId}

theorem getOutput_ok (h : q.getOutput v = .ok r) :
    ∃ output tx txout, q.outputs = [output] ∧ q.transaction v = .ok tx ∧ tx.output = [txout] ∧
      output.verify v.zkp txout = true := by
  unfold getOutput at h
  rcases houtputs : q.outputs with _ | ⟨output, _ | _⟩ <;> rw [houtputs] at h <;> try cases h
  obtain ⟨tx, htx, h⟩ := except_bind_ok_iff.1 h
  rcases hout : tx.output with _ | ⟨txout, _ | _⟩ <;> rw [hout] at h <;> try cases h
  obtain ⟨_, hverify, -⟩ := except_bind_ok_iff.1 h
  exact ⟨output, tx, txout, rfl, htx, hout, require_ok_iff.1 hverify⟩

theorem getPreviousOutpoint_ok {o : OutPoint} (h : q.getPreviousOutpoint v = .ok o) :
    ∃ tx txin, q.transaction v = .ok tx ∧ tx.input = [txin] ∧ o = txin.previousOutput := by
  obtain ⟨tx, htx, h⟩ := except_bind_ok_iff.1 h
  rcases hin : tx.input with _ | ⟨txin, _ | _⟩ <;> rw [hin] at h <;> cases h
  exact ⟨tx, txin, htx, hin, rfl⟩

theorem getInput_ok {previousTx : Transaction} (h : q.getInput v previousTx = .ok r) :
    ∃ input tx txin spent, q.inputs = [input] ∧ q.transaction v = .ok tx ∧ tx.input = [txin] ∧
      txin.previousOutput.txid = v.txid previousTx ∧
      previousTx.output[txin.previousOutput.vout]? = some spent ∧
      input.verify v.zkp spent = true := by
  unfold getInput at h
  rcases hinputs : q.inputs with _ | ⟨input, _ | _⟩ <;> rw [hinputs] at h <;> try cases h
  obtain ⟨o, houtpoint, h⟩ := except_bind_ok_iff.1 h
  obtain ⟨tx, txin, htx, hin, rfl⟩ := getPreviousOutpoint_ok houtpoint
  obtain ⟨_, htxid, h⟩ := except_bind_ok_iff.1 h
  obtain ⟨spent, hspent, h⟩ := except_bind_ok_iff.1 h
  obtain ⟨_, hverify, -⟩ := except_bind_ok_iff.1 h
  exact ⟨input, tx, txin, spent, rfl, htx, hin, of_decide_eq_true (require_ok_iff.1 htxid),
    okOr_ok_iff.1 hspent, require_ok_iff.1 hverify⟩

/-- Whatever `get_output` accepts, the accessors of the output do not panic. -/
theorem output_wellFormed (hbinds : v.zkp.BindsValue) (h : q.getOutput v = .ok r) :
    ∃ tx txout paid, (q.validated v).tx = .ok tx ∧ tx.output = [txout] ∧
      (q.validated v).output = .ok paid ∧ v.zkp.Opens txout paid := by
  obtain ⟨output, tx, txout, houtputs, htx, hout, hverify⟩ := getOutput_ok h
  refine ⟨tx, txout, _, htx, hout, ?_, ProvedSecrets.opens_of_verify hbinds hverify⟩
  simp [validated, LiquidexProposal.output, LiquidexProposal.first, houtputs]

theorem wellFormed_iff (hbinds : v.zkp.BindsValue) (h : q.getOutput v = .ok r) :
    (q.validated v).WellFormed v.zkp ↔
      q.inputs ≠ [] ∧ ∀ tx, q.transaction v = .ok tx → tx.input.length = 1 := by
  obtain ⟨tx, txout, paid, htx, hout, hpaid, hopens⟩ := output_wellFormed hbinds h
  have hinputs : (q.validated v).inputs = [] ↔ q.inputs = [] := List.map_eq_nil_iff
  have houtput : ¬ Panics (q.validated v).output := by
    rw [hpaid]
    simp [Panics]
  constructor
  · intro hwell
    refine ⟨fun hnil => hwell.input (LiquidexProposal.first_panics_iff.2 (hinputs.2 hnil)), ?_⟩
    intro tx' htx'
    obtain ⟨tx'', txin, _, _, htx'', hin, -⟩ := hwell.opens
    rw [Except.ok.inj (htx'.symm.trans htx''), hin]
    rfl
  · intro hmissing
    obtain ⟨hne, hone⟩ := hmissing
    have hne' : (q.validated v).inputs ≠ [] := mt hinputs.1 hne
    obtain ⟨txin, hin⟩ := List.length_eq_one_iff.1 (hone tx htx)
    exact {
      input := mt LiquidexProposal.first_panics_iff.1 hne'
      output := houtput
      toPset := LiquidexProposal.toPset_not_panics htx hne'
        (mt LiquidexProposal.first_panics_iff.2 houtput)
      opens := ⟨tx, txin, txout, paid, htx, hin, hout, hpaid, hopens⟩ }

/-- What `get_input` accepts is all that is missing, and the input opens as stated. -/
theorem input_wellFormed (hbinds : v.zkp.BindsValue) {previousTx : Transaction}
     (h : q.getInput v previousTx = .ok r) :
    q.inputs ≠ [] ∧ (∀ tx, q.transaction v = .ok tx → tx.input.length = 1) ∧
      (q.validated v).InputOpens v previousTx := by
  obtain ⟨input, tx, txin, spent, hinputs, htx, hin, htxid, hspent, hverify⟩ := getInput_ok h
  refine ⟨?_, ?_, tx, txin, spent, _, htx, hin, htxid, hspent, ?_,
    ProvedSecrets.opens_of_verify hbinds hverify⟩
  · rw [hinputs]
    exact List.cons_ne_nil _ _
  · intro tx' htx'
    rw [Except.ok.inj (htx'.symm.trans htx), hin]
    rfl
  · simp [validated, LiquidexProposal.input, LiquidexProposal.first, hinputs]

/-- **Validated proposals are well formed**: always if they were validated against the transaction
they spend from; without it exactly if the proposal states an opening of its input, and its
transaction has one input. -/
theorem validated_wellFormed_iff (v : Validator) (hbinds : v.zkp.BindsValue)
    (q : UnvalidatedProposal) : (∀ previousTx p, q.validate v previousTx = .ok p →
      p.WellFormed v.zkp ∧ p.InputOpens v previousTx) ∧
    ∀ p, q.insecureValidate v = .ok p → (p.WellFormed v.zkp ↔
        q.inputs ≠ [] ∧ ∀ tx, q.transaction v = .ok tx → tx.input.length = 1) := by
  constructor
  · intro previousTx p h
    obtain ⟨_, houtput, h⟩ := except_bind_ok_iff.1 h
    obtain ⟨_, hinput, h⟩ := except_bind_ok_iff.1 h
    obtain rfl := Except.ok.inj h
    obtain ⟨hne, hone, hopens⟩ := input_wellFormed hbinds hinput
    exact ⟨(wellFormed_iff hbinds houtput).2 ⟨hne, hone⟩, hopens⟩
  · intro p h
    obtain ⟨_, houtput, h⟩ := except_bind_ok_iff.1 h
    obtain rfl := Except.ok.inj h
    exact wellFormed_iff hbinds houtput

end UnvalidatedProposal

end Validation

/-! ## A proposal without an opening of its input -/

namespace NoOpening

def generator : Commitment := 5

def committed (value : UInt64) : Commitment := if value = 1000 then 6 else 7

def coin : TxOut := ⟨.confidential generator, .confidential (committed 1000), .null, [9], none⟩

def v : Validator where
  zkp :=
    { newBlinded := fun _ _ => generator
      pedersen := fun value _ _ => committed value
      blindAssetProofVerify := fun _ _ _ => false
      blindValueProofVerify := fun _ value _ commitment => commitment == committed value }
  decode := fun _ =>
    .ok (⟨[⟨⟨7, 0⟩, .null⟩], [coin]⟩, true)
  txid := fun _ => 7

def q : UnvalidatedProposal where
  version := 1
  tx := "00"
  inputs := []
  outputs := [⟨⟨5, .zero, 1000⟩, some []⟩]
  scalars := [.zero]

theorem bindsValue : v.zkp.BindsValue := by
  intro proof value generator commitment h
  exact ⟨.zero, eq_of_beq h⟩

theorem getOutput_eq : q.getOutput v = .ok (1000, 5) := by
  simp [UnvalidatedProposal.getOutput, UnvalidatedProposal.transaction, ProvedSecrets.verify,
    require, q, v, coin, bind, Except.bind, pure, Except.pure]

theorem insecureValidate_eq : q.insecureValidate v = .ok (q.validated v) := by
  rw [UnvalidatedProposal.insecureValidate, getOutput_eq]
  rfl

/-- The proposal is validated, and the first look at its input panics. -/
theorem insecure_validation_panics : v.zkp.BindsValue ∧ q.insecureValidate v = .ok (q.validated v) ∧
    Panics (q.validated v).input ∧ Panics (q.validated v).toPset :=
  ⟨bindsValue, insecureValidate_eq, ⟨_, rfl⟩, ⟨_, rfl⟩⟩

/-- The same proposal with an opening of its input. -/
def opened : UnvalidatedProposal := { q with inputs := [⟨⟨5, .zero, 1000⟩, some []⟩] }

theorem opened_validate : opened.validate v ⟨[], [coin]⟩ = .ok (opened.validated v) := by
  have hinput : opened.getInput v ⟨[], [coin]⟩ = .ok (1000, 5) := by
    simp [UnvalidatedProposal.getInput, UnvalidatedProposal.getPreviousOutpoint,
      UnvalidatedProposal.transaction, ProvedSecrets.verify, require, okOr, opened, v, coin, bind,
      Except.bind, pure, Except.pure]
  have houtput : opened.getOutput v = .ok (1000, 5) := getOutput_eq
  rw [UnvalidatedProposal.validate, houtput, except_ok_bind, hinput]
  rfl

theorem validated_wellFormed_iff_opened : ((opened.validated v).WellFormed v.zkp ∧
      (opened.validated v).InputOpens v ⟨[], [coin]⟩) ∧ ¬ (q.validated v).WellFormed v.zkp := by
  refine ⟨(UnvalidatedProposal.validated_wellFormed_iff v bindsValue opened).1 _ _ opened_validate,
    fun h => ?_⟩
  have hiff := (UnvalidatedProposal.validated_wellFormed_iff v bindsValue q).2 _ insecureValidate_eq
  exact (hiff.1 h).1 rfl

end NoOpening

end Swk
