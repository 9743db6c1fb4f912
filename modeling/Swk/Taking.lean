import Swk.Finish

/-!
# What is made and what is taken

The inversion lemmas of the two LiquiDEX builders. A maker's PSET has one input and one output, with
the asset, the amount and the asset factor of each, and a scalar (`Made`). A taker's PSET begins
with the two from the proposal; the taker adds an output that receives what the maker offers, coins
for what the maker wants and their change, and all its policy coins with change and fee (`Took`).

The fee is charged at the end: the transaction is assembled with a temporary fee (`beforeTakeFee`),
weighed, and then the amounts of the policy change and of the fee are replaced (`chargeFee`).
-/

namespace Swk

open List

/-- An output as it is before a blinder is named for it. -/
def PsetOutput.unmarked (o : PsetOutput) : PsetOutput := { o with blinderIndex := none }

namespace TxBuilder

variable {x : Builder} {w : Wollet} {t : TxBuilder} {utxos : HashMap OutPoint WalletTxOut}
variable {b b' : Build} {p : Pset}

/-! ## The maker -/

/-- A maker's run: the coin it offers, the output it asks for, and the factors drawn for that. -/
structure Made (x : Builder) (w : Wollet) (t : TxBuilder) (p : Pset) where
  outpoint : OutPoint
  recipient : Recipient
  all : HashMap OutPoint WalletTxOut
  utxo : WalletTxOut
  key : PublicKey
  abf : Tweak
  vbf : Tweak
  input : PsetInput
  selected : t.selectedUtxos = some [outpoint]
  recipients : t.recipients = [recipient]
  utxosMap : w.utxosMap = .ok all
  lookup : all.lookup outpoint = some utxo
  isKeyed : recipient.blindingPubkey = some key
  drawn : x.blindMaker utxo.unblinded recipient = .ok (abf, vbf)
  inputs : p.inputs = [input]
  asset : input.asset = some utxo.unblinded.asset
  amount : input.amount = some utxo.unblinded.value
  inputAbf : input.abf = some utxo.unblinded.assetBf
  outputs : p.outputs = [{ recipient.output with abf := some abf }]
  scalars : p.scalars = [scalarOffset utxo.unblinded recipient.satoshi abf vbf]

def Made.coin (m : Made x w t p) : TxOutSecrets := m.utxo.unblinded

def Made.paid (m : Made x w t p) : TxOutSecrets :=
  ⟨m.recipient.asset, m.abf, m.recipient.satoshi, m.vbf⟩

theorem markMakerInput_ok {c : Coin} {secrets : TxOutSecrets} {i' : PsetInput}
    (hgrows : Grows (start w) [c] [] b) (h : markMakerInput secrets b = .ok i' b') :
    ∃ input, b'.pset.inputs = [input] ∧ input.spent = c.spent ∧ input.abf = some secrets.assetBf ∧
      b'.pset.outputs = [] := by
  obtain ⟨i, hi, hrewrites⟩ := modifyInput_ok h fun _ => rfl
  obtain ⟨l₁, l₂, hbefore, hlength, hafter⟩ := hrewrites.inputs
  have hspent := hrewrites.map_spent.trans hgrows.spent
  rw [hafter, length_eq_zero_iff.1 hlength] at hspent
  obtain ⟨hfirst, hrest⟩ := cons.inj hspent
  refine ⟨i', ?_, hfirst, ?_, ?_⟩
  · rw [hafter, length_eq_zero_iff.1 hlength, map_eq_nil_iff.1 hrest]
    rfl
  · rw [hi]
  · rw [hrewrites.outputs, hgrows.outputs]
    rfl

theorem finishLiquidexMake_ok (h : t.finishLiquidexMake x w (start w) = .ok p b') :
    Nonempty (Made x w t p) := by
  unfold finishLiquidexMake at h
  rcases hselection : t.selectedUtxos with _ | _ | ⟨outpoint, _ | _⟩ <;>
    rcases hrecipients : t.recipients with _ | ⟨recipient, _ | _⟩ <;>
    rw [hselection, hrecipients] at h <;> try exact absurd h fun h => throw_ok_iff.1 h
  obtain ⟨utxos, hutxos, h⟩ := liftExcept_bind_ok_iff.1 h
  cases hutxo : utxos.lookup outpoint with
  | none =>
    rw [hutxo] at h
    exact absurd h fun h => throw_ok_iff.1 h
  | some utxo =>
    rw [hutxo] at h
    obtain ⟨_, b₁, hadd, h⟩ := bind_ok_iff.1 h
    have hgrows₁ := (addInput_ok hadd).2
    obtain ⟨_, b₂, hmark, h⟩ := bind_ok_iff.1 h
    obtain ⟨input, hinputs, hspent, hinputAbf, houtputs₂⟩ := markMakerInput_ok hgrows₁ hmark
    obtain ⟨_, b₃, houtput, h⟩ := bind_ok_iff.1 h
    have hgrows₃ := pushOutput_ok houtput
    have houtputs₃ : b₃.pset.outputs = [recipient.output] := by
      rw [hgrows₃.outputs, houtputs₂]
      rfl
    cases hkey : recipient.blindingPubkey with
    | none =>
      rw [hkey] at h
      exact absurd h fun h => throw_ok_iff.1 h
    | some key =>
      rw [hkey] at h
      obtain ⟨r, hdrawn, h⟩ := liftExcept_bind_ok_iff.1 h
      replace h := modify_bind_ok_iff.1 h
      replace h := get_bind_ok_iff.1 h
      obtain ⟨_, -, h⟩ := liftExcept_bind_ok_iff.1 h
      obtain ⟨rfl, -⟩ := pure_ok_iff.1 h
      exact ⟨{
        outpoint, recipient, utxo, key, input
        all := utxos
        abf := r.1
        vbf := r.2
        selected := hselection
        recipients := hrecipients
        utxosMap := hutxos
        lookup := hutxo
        isKeyed := hkey
        drawn := hdrawn
        inputs := hgrows₃.same_inputs.trans hinputs
        asset := congrArg (·.2.1) hspent
        amount := congrArg (·.2.2) hspent
        inputAbf := hinputAbf
        outputs := congrArg
          (fun l : List PsetOutput => l.modify 0 fun o => { o with abf := some r.1 }) houtputs₃
        scalars := rfl }⟩

/-! ## Before the fee is charged -/

/-- `finish_liquidex_take` up to the fee. -/
def beforeTakeFee (x : Builder) (w : Wollet) (t : TxBuilder) : BuildM (UInt64 × UInt64) :=
  t.withProposal x w (t.takeDraft x w)

structure Read (x : Builder) (w : Wollet) (t : TxBuilder) where
  proposal : LiquidexProposal
  pset : Pset
  input : PsetInput
  output : PsetOutput
  all : HashMap OutPoint WalletTxOut
  changeAddress : Address × UInt32
  receiveAddress : Address × UInt32
  proposals : t.liquidexProposals = [proposal]
  toPset : proposal.toPset = .ok pset
  inputs : pset.inputs = [input]
  outputs : pset.outputs = [output]
  utxosMap : w.utxosMap = .ok all
  internal : w.innerAddress x.env .internal none = .ok changeAddress
  external : w.innerAddress x.env .external none = .ok receiveAddress

def Read.build (r : Read x w t) (b : Build) : Build :=
  { b with
    pset := r.pset
    lastUnusedInternal := r.changeAddress.2
    lastUnusedExternal := r.receiveAddress.2 }

section Proposal

variable {α : Type} {k : HashMap OutPoint WalletTxOut → PsetInput → PsetOutput → BuildM α} {a : α}

theorem withProposal_ok (h : t.withProposal x w k b = .ok a b') :
    ∃ r : Read x w t, k r.all r.input r.output (r.build b) = .ok a b' := by
  unfold withProposal at h
  rcases hproposals : t.liquidexProposals with _ | ⟨proposal, _ | _⟩ <;>
    rw [hproposals] at h <;> try exact absurd h fun h => throw_ok_iff.1 h
  obtain ⟨pset, hpset, h⟩ := liftExcept_bind_ok_iff.1 h
  obtain ⟨change, hinternal, h⟩ := liftExcept_bind_ok_iff.1 h
  obtain ⟨receive, hexternal, h⟩ := liftExcept_bind_ok_iff.1 h
  replace h := modify_bind_ok_iff.1 h
  obtain ⟨all, hall, h⟩ := liftExcept_bind_ok_iff.1 h
  rcases hinputs : pset.inputs with _ | ⟨input, _ | _⟩ <;>
    rcases houtputs : pset.outputs with _ | ⟨output, _ | _⟩ <;>
    rw [hinputs, houtputs] at h <;> try exact absurd h fun h => throw_ok_iff.1 h
  exact ⟨⟨proposal, pset, input, output, all, change, receive, hproposals, hpset, hinputs, houtputs,
    hall, hinternal, hexternal⟩, h⟩

theorem Read.withProposal (r : Read x w t)
    (h : k r.all r.input r.output (r.build b) = .ok a b') : t.withProposal x w k b = .ok a b' := by
  unfold TxBuilder.withProposal
  rw [r.proposals]
  refine bind_ok_iff.2 ⟨_, _, liftExcept_ok_iff.2 ⟨r.toPset, rfl⟩, ?_⟩
  refine bind_ok_iff.2 ⟨_, _, liftExcept_ok_iff.2 ⟨r.internal, rfl⟩, ?_⟩
  refine bind_ok_iff.2 ⟨_, _, liftExcept_ok_iff.2 ⟨r.external, rfl⟩, ?_⟩
  refine bind_ok_iff.2 ⟨(), _, modify_ok_iff.2 rfl, ?_⟩
  refine bind_ok_iff.2 ⟨_, _, liftExcept_ok_iff.2 ⟨r.utxosMap, rfl⟩, ?_⟩
  rw [r.inputs, r.outputs]
  exact h

end Proposal

theorem finishLiquidexTake_beforeTakeFee (h : t.finishLiquidexTake x w b = .ok p b') :
    ∃ (r : Read x w t) (sums : UInt64 × UInt64) (b₁ : Build),
      t.takeDraft x w r.all r.input r.output (r.build b) = .ok sums b₁ ∧
      t.beforeTakeFee x w b = .ok sums b₁ ∧ t.completeTake x sums b₁ = .ok p b' := by
  obtain ⟨r, h⟩ := withProposal_ok h
  obtain ⟨sums, b₁, hdraft, hcomplete⟩ := bind_ok_iff.1 h
  exact ⟨r, sums, b₁, hdraft, r.withProposal hdraft, hcomplete⟩

/-! ## The scalars are kept -/

def HasScalars (scalars : List Tweak) (b : Build) : Prop := b.pset.scalars = scalars

section Scalars

variable {scalars : List Tweak}

theorem addInput_scalars (proofs : Bool) (utxo : WalletTxOut) :
    Maintains (HasScalars scalars) (w.addInput x proofs utxo) := by
  intro b idx b' h hb
  obtain ⟨tx, -, h⟩ := liftExcept_bind_ok_iff.1 h
  obtain ⟨txout, -, h⟩ := liftExcept_bind_ok_iff.1 h
  replace h := get_bind_ok_iff.1 h
  obtain ⟨-, h⟩ := ensureElse_bind_ok_iff.1 h
  obtain ⟨_, -, h⟩ := liftExcept_bind_ok_iff.1 h
  obtain ⟨-, h⟩ := ensureElse_bind_ok_iff.1 h
  replace h := set_bind_ok_iff.1 h
  obtain ⟨-, rfl⟩ := pure_ok_iff.1 h
  exact hb

theorem pushOutput_scalars (o : PsetOutput) : Maintains (HasScalars scalars) (pushOutput o) :=
  .modify fun _ hb => hb

theorem pickAddressee_scalars (f : Build → Except Error (Recipient × UInt32))
    (setIndex : Build → UInt32 → Build) (hset : ∀ b n, (setIndex b n).pset = b.pset) :
    Maintains (HasScalars scalars) (do
      let b ← get
      let r ← liftExcept (f b)
      set (setIndex b r.2)
      pure r.1 : BuildM Recipient) := by
  intro b a b' h hb
  replace h := get_bind_ok_iff.1 h
  obtain ⟨_, -, h⟩ := liftExcept_bind_ok_iff.1 h
  replace h := set_bind_ok_iff.1 h
  obtain ⟨-, rfl⟩ := pure_ok_iff.1 h
  exact (congrArg Pset.scalars (hset _ _)).trans hb

theorem addChange_scalars (satoshi : UInt64) (asset : AssetId) :
    Maintains (HasScalars scalars) (addChange x w satoshi asset) :=
  (pickAddressee_scalars (fun b => w.addresseeInner x satoshi asset b.lastUnusedInternal true)
    (fun b n => { b with lastUnusedInternal := n }) fun _ _ => rfl).bind
    fun _ => pushOutput_scalars _

theorem payMaker_scalars (wanted : MakerSide) :
    Maintains (HasScalars scalars) (t.payMaker x w utxos wanted) :=
  .ite ((addCoinsUntil_maintains addInput_scalars _ _ _ _).bind fun _ =>
    (Maintains.ite (addChange_scalars _ _) (.pure _)).bind fun _ => .ensureElse _ _) (.pure _)

theorem addresseeExternal_scalars (satoshi : UInt64) (asset : AssetId) :
    Maintains (HasScalars scalars) (w.addresseeExternal x satoshi asset) :=
  pickAddressee_scalars (fun b => w.addresseeInner x satoshi asset b.lastUnusedExternal false)
    (fun b n => { b with lastUnusedExternal := n }) fun _ _ => rfl

theorem markOutputs_scalars : Maintains (HasScalars scalars) markOutputs := .modify fun _ hb => hb

theorem setAmount_scalars (idx : Nat) (amount : UInt64) :
    Maintains (HasScalars scalars) (setAmount idx amount) :=
  .modify fun _ hb => hb

theorem insertOpening_scalars (secrets : TxOutSecrets) : Maintains (HasScalars scalars)
      (modify fun b : Build => { b with inpTxoutSec := b.inpTxoutSec.insert 0 secrets } :
        BuildM Unit) :=
  .modify fun _ hb => hb

theorem settleDraft_scalars (wanted : MakerSide) (sums : UInt64 × UInt64) :
    Maintains (HasScalars scalars) (settleDraft x w wanted sums) :=
  (Maintains.ensureElse _ _).bind fun _ => (addChange_scalars _ _).bind fun _ =>
    (pushOutput_scalars _).bind fun _ => Maintains.get.bind fun _ =>
    (Maintains.liftExcept _).bind fun _ => markOutputs_scalars

theorem takeDraft_scalars (input : PsetInput) (output : PsetOutput) :
    Maintains (HasScalars scalars) (t.takeDraft x w utxos input output) :=
  (Maintains.liftExcept _).bind fun _ => (Maintains.liftExcept _).bind fun _ =>
    (insertOpening_scalars _).bind fun _ => (addresseeExternal_scalars _ _).bind fun _ =>
    (pushOutput_scalars _).bind fun _ => (payMaker_scalars _).bind fun _ =>
    (addCoins_maintains addInput_scalars _ _).bind fun _ =>
    (settleDraft_scalars _ _).bind fun _ => .pure _

theorem chargeFee_scalars (sums : UInt64 × UInt64) :
    Maintains (HasScalars scalars) (t.chargeFee x sums) :=
  Maintains.get.bind fun _ => (Maintains.liftExcept _).bind fun _ =>
    (Maintains.ensureElse _ _).bind fun _ => (setAmount_scalars _ _).bind fun _ =>
    (setAmount_scalars _ _).bind fun _ => Maintains.get.bind fun _ => .liftExcept _

end Scalars

/-! ## What is drafted -/

def withAmount (amount : UInt64) (o : PsetOutput) : PsetOutput := { o with amount := some amount }

theorem map_unmarked_modify (amount : UInt64) (l : List PsetOutput) (idx : Nat) :
    (l.modify idx (withAmount amount)).map (·.unmarked) =
      (l.map (·.unmarked)).modify idx (withAmount amount) := by
  induction l generalizing idx with
  | nil => cases idx <;> rfl
  | cons o l ih =>
    cases idx with
    | zero => rfl
    | succ idx => simpa using ih idx

theorem modify_last_two {α : Type} (l : List α) (c f : α) (g h : α → α) :
    ((l ++ [c, f]).modify l.length g).modify (l.length + 1) h = l ++ [g c, h f] := by
  induction l with
  | nil => rfl
  | cons a l ih => simpa using ih

variable {u : Unit} {wanted : MakerSide} {sums : UInt64 × UInt64}

theorem markOutputs_ok (h : markOutputs b = .ok u b') :
    b'.pset.inputs = b.pset.inputs ∧ b'.inpTxoutSec = b.inpTxoutSec ∧
      b'.pset.outputs.map (·.unmarked) = b.pset.outputs.map (·.unmarked) := by
  obtain rfl := modify_ok_iff.1 h
  refine ⟨rfl, rfl, ?_⟩
  have hfst := congrArg (map (·.unmarked)) (zipIdx_map_fst 0 b.pset.outputs)
  rw [map_map] at hfst
  rw [← hfst]
  refine (map_map ..).trans (map_congr_left ?_)
  intro e _
  simp only [Function.comp]
  split
  · rfl
  · split <;> rfl

theorem settleDraft_ok (h : settleDraft x w wanted sums b = .ok u b') :
    b'.pset.inputs = b.pset.inputs ∧ b'.inpTxoutSec = b.inpTxoutSec ∧
      ∃ r, IsOwn x w true (sums.1 - sums.2 - tempFee) x.env.policyAsset r ∧
        b'.pset.outputs.map (·.unmarked) = b.pset.outputs.map (·.unmarked) ++
          [r.output.unmarked, feeOutput tempFee x.env.policyAsset] := by
  obtain ⟨-, h⟩ := ensureElse_bind_ok_iff.1 h
  obtain ⟨_, b₁, hchange, h⟩ := bind_ok_iff.1 h
  obtain ⟨r, hr, hgrows₁⟩ := addChange_ok hchange
  obtain ⟨_, b₂, hpush, h⟩ := bind_ok_iff.1 h
  have hgrows := hgrows₁.trans (pushOutput_ok hpush)
  replace h := get_bind_ok_iff.1 h
  obtain ⟨_, -, h⟩ := liftExcept_bind_ok_iff.1 h
  obtain ⟨hinputs, hsecrets, houtputs⟩ := markOutputs_ok h
  refine ⟨hinputs.trans hgrows.same_inputs, hsecrets.trans hgrows.secrets, r, hr, ?_⟩
  rw [houtputs, hgrows.outputs, map_append]
  rfl

theorem chargeFee_ok {l : List PsetOutput} {c f : PsetOutput}
    (hb : b.pset.outputs.map (·.unmarked) = l ++ [c, f]) (h : t.chargeFee x sums b = .ok u b') :
    ∃ txWeight fee, x.weigh b.pset b.inpTxoutSec true t.ctDiscount = .ok txWeight ∧
      fee = x.calculateFee (b.inpWeight + txWeight) t.feeRate ∧ sums.2 + fee < sums.1 ∧
      b'.pset.inputs = b.pset.inputs ∧ b'.inpTxoutSec = b.inpTxoutSec ∧
      x.blindLast b'.pset b'.inpTxoutSec = .ok () ∧
      b'.pset.outputs.map (·.unmarked) =
        l ++ [withAmount (sums.1 - sums.2 - fee) c, withAmount fee f] := by
  replace h := get_bind_ok_iff.1 h
  obtain ⟨txWeight, hweigh, h⟩ := liftExcept_bind_ok_iff.1 h
  obtain ⟨hroom, h⟩ := ensureElse_bind_ok_iff.1 h
  replace h := modify_bind_ok_iff.1 h
  replace h := modify_bind_ok_iff.1 h
  replace h := get_bind_ok_iff.1 h
  obtain ⟨hblind, rfl⟩ := liftExcept_ok_iff.1 h
  have hlength : b.pset.outputs.length = l.length + 2 := by
    simpa using congrArg length hb
  refine ⟨txWeight, _, hweigh, rfl, ?_, rfl, rfl, hblind, ?_⟩
  · simpa using hroom
  · refine (map_unmarked_modify _ _ _).trans ?_
    rw [hlength]
    refine (congrArg (modify · _ _) (map_unmarked_modify _ _ _)).trans ?_
    rw [hb]
    exact modify_last_two l c f _ _

/-! ## What is taken -/

/-- The coins for what the maker wants, if it is not the policy asset. -/
def wantedCoins (x : Builder) (utxos : HashMap OutPoint WalletTxOut) (wanted : MakerSide) :
    List WalletTxOut :=
  if wanted.asset ≠ x.env.policyAsset then
    takenUntil false wanted.satoshi (coinsOf x utxos wanted.asset) 0
  else []

/-- The coins a taker adds: enough of what the maker wants, and all of the policy asset. -/
def takerCoins (x : Builder) (utxos : HashMap OutPoint WalletTxOut) (wanted : MakerSide) :
    List WalletTxOut :=
  wantedCoins x utxos wanted ++ coinsOf x utxos x.env.policyAsset

/-- The change of the coins for what the maker wants. -/
def IsWantedChange (x : Builder) (w : Wollet) (utxos : HashMap OutPoint WalletTxOut)
    (wanted : MakerSide) (change : Option Recipient) : Prop :=
  if wanted.asset ≠ x.env.policyAsset then
    IsChangeOf x w
      (UInt64.ofNat (total (·.unblinded.value) (wantedCoins x utxos wanted)), wanted.satoshi)
      wanted.asset change
  else change = none

theorem payMaker_ok (h : t.payMaker x w utxos wanted b = .ok u b') :
    ∃ change, IsWantedChange x w utxos wanted change ∧
      Grows b ((wantedCoins x utxos wanted).map (·.coin)) (change.toList.map (·.output)) b' := by
  unfold payMaker at h
  unfold IsWantedChange wantedCoins
  by_cases hpolicy : wanted.asset ≠ x.env.policyAsset
  · rw [if_pos hpolicy] at h
    simp only [if_pos hpolicy]
    obtain ⟨satoshiIn, b₁, hcoins, h⟩ := bind_ok_iff.1 h
    obtain ⟨hgrows₁, rfl⟩ := addCoinsUntil_ok hcoins
    obtain ⟨change, hchange, hgrows⟩ := addAssetChange_ok h
    rw [UInt64.zero_add, total_coins] at hchange
    have hall := hgrows₁.trans hgrows
    rw [append_nil] at hall
    exact ⟨change, hchange, hall⟩
  · rw [if_neg hpolicy] at h
    simp only [if_neg hpolicy]
    obtain ⟨-, rfl⟩ := pure_ok_iff.1 h
    exact ⟨none, rfl, .refl _⟩

def OwnChange (x : Builder) (w : Wollet) (change : List Recipient) : Prop :=
  ∀ r ∈ change, ∃ satoshi asset, IsOwn x w true satoshi asset r

theorem IsWantedChange.ownChange {change : Option Recipient}
    (h : IsWantedChange x w utxos wanted change) : OwnChange x w change.toList := by
  intro r hr
  obtain rfl := Option.mem_toList.1 hr
  unfold IsWantedChange at h
  split at h
  · exact ⟨_, _, h.2⟩
  · cases h

/-- A proposal with what the taker adds to it, before the fee is known. -/
structure Drafted (x : Builder) (w : Wollet) (utxos : HashMap OutPoint WalletTxOut)
    (input : PsetInput) (output : PsetOutput) (b : Build) (sums : UInt64 × UInt64) (b' : Build)
    where
  offered : MakerSide
  wanted : MakerSide
  receive : Recipient
  change : Option Recipient
  settled : Recipient
  offers : makerSide input.asset input.amount input.abf = .ok offered
  wants : makerSide output.asset output.amount output.abf = .ok wanted
  isReceive : IsOwn x w false offered.satoshi offered.asset receive
  isChange : IsWantedChange x w utxos wanted change
  isSettled : IsOwn x w true (sums.1 - sums.2 - tempFee) x.env.policyAsset settled
  sums_eq : sums = ((takerSums x.env.policyAsset offered wanted).1 +
      UInt64.ofNat (total (·.unblinded.value) (coinsOf x utxos x.env.policyAsset)),
    (takerSums x.env.policyAsset offered wanted).2)
  spends : ∃ l, List.Forall₂ PsetInput.Spends l ((takerCoins x utxos wanted).map (·.coin)) ∧
    b'.pset.inputs = b.pset.inputs ++ l
  secrets : b'.inpTxoutSec = HashMap.extend (b.inpTxoutSec.insert 0 (makerSecrets offered))
    (openings b.pset.inputs.length ((takerCoins x utxos wanted).map (·.coin)))
  outputs : b'.pset.outputs.map (·.unmarked) = b.pset.outputs.map (·.unmarked) ++
    (receive :: change.toList).map (·.output.unmarked) ++
    [settled.output.unmarked, feeOutput tempFee x.env.policyAsset]
  scalars : b'.pset.scalars = b.pset.scalars

theorem takeDraft_ok {input : PsetInput} {output : PsetOutput}
    (h : t.takeDraft x w utxos input output b = .ok sums b') :
    Nonempty (Drafted x w utxos input output b sums b') := by
  have hscalars : HasScalars b.pset.scalars b' := takeDraft_scalars _ _ _ _ _ h rfl
  obtain ⟨offered, hoffered, h⟩ := liftExcept_bind_ok_iff.1 h
  obtain ⟨wanted, hwanted, h⟩ := liftExcept_bind_ok_iff.1 h
  replace h := modify_bind_ok_iff.1 h
  obtain ⟨receive, b₂, haddressee, h⟩ := bind_ok_iff.1 h
  obtain ⟨hown, hgrows₁⟩ := addresseeExternal_ok haddressee
  obtain ⟨_, b₃, hadd, h⟩ := bind_ok_iff.1 h
  have hgrows₂ := pushOutput_ok hadd
  obtain ⟨_, b₄, hpay, h⟩ := bind_ok_iff.1 h
  obtain ⟨change, hchange, hgrows₃⟩ := payMaker_ok hpay
  obtain ⟨satoshiIn, b₅, hcoins, h⟩ := bind_ok_iff.1 h
  obtain ⟨hgrows₄, rfl⟩ := addCoins_ok hcoins
  obtain ⟨_, b₆, hsettle, h⟩ := bind_ok_iff.1 h
  obtain ⟨hinputs, hsecrets, settled, hsettled, houtputs⟩ := settleDraft_ok hsettle
  obtain ⟨rfl, rfl⟩ := pure_ok_iff.1 h
  have hgrows := ((hgrows₁.trans hgrows₂).trans hgrows₃).trans hgrows₄
  obtain ⟨l, hl, happend⟩ := hgrows.inputs
  have hcoinsEq : ([] ++ [] ++ (wantedCoins x utxos wanted).map (·.coin) ++
      (coinsOf x utxos x.env.policyAsset).map (·.coin)) =
        (takerCoins x utxos wanted).map (·.coin) := by
    rw [takerCoins, map_append]
    rfl
  rw [total_coins] at hsettled ⊢
  rw [hcoinsEq] at hl
  exact ⟨{
    offered, wanted, receive, change, settled
    offers := hoffered
    wants := hwanted
    isReceive := hown
    isChange := hchange
    isSettled := hsettled
    sums_eq := rfl
    spends := ⟨l, hl, hinputs.trans happend⟩
    secrets := by
      rw [hsecrets, hgrows.secrets, hcoinsEq]
    outputs := by
      rw [houtputs, hgrows.outputs]
      simp [Function.comp_def]
    scalars := hscalars }⟩

/-- The fee of a run: what its draft is weighed at. -/
def TakeFee (x : Builder) (w : Wollet) (t : TxBuilder) (b : Build) (fee : UInt64) : Prop :=
  ∃ sums b₁ txWeight, t.beforeTakeFee x w b = .ok sums b₁ ∧
    x.weigh b₁.pset b₁.inpTxoutSec true t.ctDiscount = .ok txWeight ∧
    fee = x.calculateFee (b₁.inpWeight + txWeight) t.feeRate

theorem TakeFee.unique {fee fee' : UInt64} (h : t.TakeFee x w b fee) (h' : t.TakeFee x w b fee') :
    fee = fee' := by
  obtain ⟨sums, b₁, txWeight, hbefore, hweigh, rfl⟩ := h
  obtain ⟨sums', b₁', txWeight', hbefore', hweigh', rfl⟩ := h'
  rw [hbefore] at hbefore'
  cases hbefore'
  rw [hweigh] at hweigh'
  cases hweigh'
  rfl

/-- A taker's run: the draft, and the fee that is charged on it. -/
structure Took (x : Builder) (w : Wollet) (t : TxBuilder) (b : Build) (p : Pset) (b' : Build)
    extends Read x w t where
  sums : UInt64 × UInt64
  draft : Build
  drafted : Drafted x w all input output (toRead.build b) sums draft
  fee : UInt64
  isFee : t.TakeFee x w b fee
  room : sums.2 + fee < sums.1
  sameInputs : p.inputs = draft.pset.inputs
  sameSecrets : b'.inpTxoutSec = draft.inpTxoutSec
  sameScalars : p.scalars = draft.pset.scalars
  blinds : x.blindLast p b'.inpTxoutSec = .ok ()
  allOutputs : p.outputs.map (·.unmarked) = output.unmarked ::
    (drafted.receive :: drafted.change.toList).map (·.output.unmarked) ++
    [(drafted.settled.withAmount (sums.1 - sums.2 - fee)).output.unmarked,
      feeOutput fee x.env.policyAsset]

theorem finishLiquidexTake_ok (h : t.finishLiquidexTake x w b = .ok p b') :
    Nonempty (Took x w t b p b') := by
  obtain ⟨r, sums, b₁, hdraft, hbefore, h⟩ := finishLiquidexTake_beforeTakeFee h
  obtain ⟨d⟩ := takeDraft_ok hdraft
  obtain ⟨_, b₂, hcharge, h⟩ := bind_ok_iff.1 h
  have hscalars : HasScalars b₁.pset.scalars b₂ := chargeFee_scalars _ _ _ _ hcharge rfl
  obtain ⟨txWeight, fee, hweigh, hfee, hroom, hinputs, hsecrets, hblind, houtputs⟩ :=
    chargeFee_ok d.outputs hcharge
  replace h := get_bind_ok_iff.1 h
  obtain ⟨_, -, h⟩ := liftExcept_bind_ok_iff.1 h
  obtain ⟨rfl, rfl⟩ := pure_ok_iff.1 h
  exact ⟨{
    toRead := r
    sums, fee
    draft := b₁
    drafted := d
    isFee := ⟨sums, b₁, txWeight, hbefore, hweigh, hfee⟩
    room := hroom
    sameInputs := hinputs
    sameSecrets := hsecrets
    sameScalars := hscalars
    blinds := hblind
    allOutputs := by
      rw [houtputs]
      show r.pset.outputs.map _ ++ _ ++ _ = _
      rw [r.outputs]
      rfl }⟩

namespace Took

variable (f : Took x w t b p b')

theorem spends : ∃ l, List.Forall₂ PsetInput.Spends l
    ((takerCoins x f.all f.drafted.wanted).map (·.coin)) ∧ p.inputs = f.input :: l := by
  obtain ⟨l, hl, hinputs⟩ := f.drafted.spends
  refine ⟨l, hl, ?_⟩
  rw [f.sameInputs, hinputs]
  show f.pset.inputs ++ l = _
  rw [f.inputs]
  rfl

theorem map_spent : p.inputs.map (·.spent) =
    f.input.spent :: (takerCoins x f.all f.drafted.wanted).map (·.coin.spent) := by
  obtain ⟨l, hl, hinputs⟩ := f.spends
  rw [hinputs, map_cons, spends_spent hl, map_map]
  rfl

theorem outpoints : p.inputs.map (·.previousOutput) =
    f.input.previousOutput :: (takerCoins x f.all f.drafted.wanted).map (·.outpoint) := by
  have hspent := congrArg (map Prod.fst) f.map_spent
  rw [map_map, map_cons, map_map] at hspent
  exact hspent

theorem keys : OwnChange x w (f.drafted.change.toList ++ [f.drafted.settled]) ∧
    p.outputs.map (·.blindingKey) = f.output.blindingKey ::
      (f.drafted.receive :: (f.drafted.change.toList ++ [f.drafted.settled])).map
        (·.blindingPubkey) ++ [none] := by
  constructor
  · intro r hr
    rcases mem_append.1 hr with hr | hr
    · exact f.drafted.isChange.ownChange r hr
    · rw [mem_singleton.1 hr]
      exact ⟨_, _, f.drafted.isSettled⟩
  · have hkeys := congrArg (map (·.blindingKey)) f.allOutputs
    rw [map_map] at hkeys
    refine Eq.trans hkeys ?_
    simp [PsetOutput.unmarked, Recipient.output, Recipient.withAmount, Function.comp_def, feeOutput,
      PsetOutput.newExplicit]

end Took

end TxBuilder

end Swk
