import Mathlib.Data.ZMod.Basic
import Swk.BlindLast
import Swk.Conservation
import Swk.Proposal

/-!
# Taking a proposal balances

Two wallets build one transaction. The maker offers a coin and asks for an output, and blinds that
output alone. The taker adds the rest and never learns the maker's value factors: what they
contribute to the blinding is in one scalar of the proposal, and the maker's input goes into the
taker's computation with factors that contribute nothing. `TakeBalances` is what must hold of the
result: amounts balance asset by asset, the taker receives what the maker offered, and the terms of
the blinding balance modulo the order of the curve.

The last two hold always. The first one rests on sums of `u64`s that nothing checks: the coins of
the asset that the maker wants, and the policy asset that goes out together with the fee. A debug
build panics where one overflows; a release build goes on, and `liquidexTake_balances_iff` says when
the result still balances. `FeeWraps` is a run where it does not.
-/

namespace Swk

open Concrete List

/-! ## From the maker's PSET to a proposal -/

structure SignedPset where
  pset : Pset
  /-- The transaction that `finalize` and `extract_tx` give, as hexadecimal text. -/
  tx : Except Error String
  final : Bool
  inputProof : Option (List UInt8)
  outputProof : Option (List UInt8)

/-- The opening that a proposal states for an input or output; every part of it is there. -/
def ProvedSecrets.fromFields (asset : Option AssetId) (abf : Option Tweak) (amount : Option UInt64)
    (proof : Option (List UInt8))
    (missingAsset missingAbf missingAmount missingProof : LiquidexError) :
    Except Error ProvedSecrets := do
  let asset ← okOr asset (.liquidexError missingAsset)
  let assetBlinder ← okOr abf (.liquidexError missingAbf)
  let satoshi ← okOr amount (.liquidexError missingAmount)
  require proof.isSome (.liquidexError missingProof)
  pure { asset, assetBlinder, satoshi, blindValueProof := proof }

def UnvalidatedProposal.fromPset (s : SignedPset) : Except Error UnvalidatedProposal := do
  let tx ← s.tx
  match s.pset.inputs with
  | [input] =>
    match s.pset.outputs with
    | [output] => do
        require (s.pset.scalars.length = 1) (.liquidexError .unexpectedScalars)
        require s.final (.liquidexError .missingSignature)
        let input ← ProvedSecrets.fromFields input.asset input.abf input.amount s.inputProof
          .inputMissingAsset .inputMissingAbf .inputMissingAmount .inputMissingBlindValueProof
        let output ← ProvedSecrets.fromFields output.asset output.abf output.amount s.outputProof
          .outputMissingAsset .outputMissingAbf .outputMissingAmount
          .outputMissingBlindValueProof
        pure ⟨1, tx, [input], [output], s.pset.scalars⟩
    | _ => throw (.liquidexError .unexpectedOutputs)
  | _ => throw (.liquidexError .unexpectedInputs)

theorem ProvedSecrets.fromFields_ok {asset : Option AssetId} {abf : Option Tweak}
    {amount : Option UInt64} {proof : Option (List UInt8)} {e₁ e₂ e₃ e₄ : LiquidexError}
    {s : ProvedSecrets} (h : fromFields asset abf amount proof e₁ e₂ e₃ e₄ = .ok s) :
    asset = some s.asset ∧ abf = some s.assetBlinder ∧ amount = some s.satoshi := by
  obtain ⟨_, hasset, h⟩ := except_bind_ok_iff.1 h
  obtain ⟨_, habf, h⟩ := except_bind_ok_iff.1 h
  obtain ⟨_, hamount, h⟩ := except_bind_ok_iff.1 h
  obtain ⟨_, -, h⟩ := except_bind_ok_iff.1 h
  obtain rfl := Except.ok.inj h
  exact ⟨okOr_ok_iff.1 hasset, okOr_ok_iff.1 habf, okOr_ok_iff.1 hamount⟩

theorem UnvalidatedProposal.fromPset_ok {s : SignedPset} {q : UnvalidatedProposal}
    (h : fromPset s = .ok q) :
    ∃ input output i o, s.pset.inputs = [input] ∧ s.pset.outputs = [output] ∧ q.inputs = [i] ∧
      q.outputs = [o] ∧ q.scalars = s.pset.scalars ∧
      (input.asset = some i.asset ∧ input.abf = some i.assetBlinder ∧
        input.amount = some i.satoshi) ∧
      output.asset = some o.asset ∧ output.abf = some o.assetBlinder ∧
        output.amount = some o.satoshi := by
  obtain ⟨tx, -, h⟩ := except_bind_ok_iff.1 h
  rcases hinputs : s.pset.inputs with _ | ⟨input, _ | _⟩ <;> rw [hinputs] at h <;> try cases h
  rcases houtputs : s.pset.outputs with _ | ⟨output, _ | _⟩ <;> rw [houtputs] at h <;> try cases h
  iterate 2 obtain ⟨_, -, h⟩ := except_bind_ok_iff.1 h
  obtain ⟨i, hi, h⟩ := except_bind_ok_iff.1 h
  obtain ⟨o, ho, h⟩ := except_bind_ok_iff.1 h
  obtain rfl := Except.ok.inj h
  exact ⟨input, output, i, o, rfl, rfl, rfl, rfl, rfl, ProvedSecrets.fromFields_ok hi,
    ProvedSecrets.fromFields_ok ho⟩

/-- A validated proposal of a maker who offers a coin and is to be paid, with the factors of
both. -/
structure Offers (x : Builder) (w : Wollet) (t : TxBuilder) (v : Validator)
    (coin paid : TxOutSecrets) (proposal : LiquidexProposal) : Prop where
  made : ∃ (s : SignedPset) (q : UnvalidatedProposal) (b' : Build) (m : t.Made x w s.pset),
    t.finishLiquidexMake x w (TxBuilder.start w) = .ok s.pset b' ∧ m.coin = coin ∧ m.paid = paid ∧
      UnvalidatedProposal.fromPset s = .ok q ∧
      ((∃ previousTx, q.validate v previousTx = .ok proposal) ∨ q.insecureValidate v = .ok proposal)

theorem Offers.parts {x : Builder} {w : Wollet} {t : TxBuilder} {v : Validator}
    {coin paid : TxOutSecrets} {proposal : LiquidexProposal}
    (h : Offers x w t v coin paid proposal) :
    proposal.inputs = [⟨coin.asset, coin.assetBf, coin.value⟩] ∧
      proposal.outputs = [⟨paid.asset, paid.assetBf, paid.value⟩] ∧
      proposal.scalars = [TxBuilder.scalarOffset coin paid.value paid.assetBf paid.valueBf] := by
  obtain ⟨s, q, b', m, -, rfl, rfl, hfrom, hvalid⟩ := h.made
  have hproposal : proposal = q.validated v := by
    rcases hvalid with ⟨previousTx, hvalid⟩ | hvalid
    · obtain ⟨_, -, h⟩ := except_bind_ok_iff.1 hvalid
      obtain ⟨_, -, h⟩ := except_bind_ok_iff.1 h
      exact (Except.ok.inj h).symm
    · obtain ⟨_, -, h⟩ := except_bind_ok_iff.1 hvalid
      exact (Except.ok.inj h).symm
  subst hproposal
  obtain ⟨input, output, i, o, hinputs, houtputs, hi, ho, hscalars, ⟨hasset, habf, hamount⟩,
    hasset', habf', hamount'⟩ := UnvalidatedProposal.fromPset_ok hfrom
  obtain rfl : m.input = input := singleton_inj.1 (m.inputs.symm.trans hinputs)
  obtain rfl := singleton_inj.1 (m.outputs.symm.trans houtputs)
  refine ⟨?_, ?_, hscalars.trans m.scalars⟩
  · show q.inputs.map (·.toLiquidexTxOutSecrets) = _
    rw [hi]
    show [(⟨i.asset, i.assetBlinder, i.satoshi⟩ : LiquidexTxOutSecrets)] = _
    rw [Option.some.inj (hasset.symm.trans m.asset), Option.some.inj (habf.symm.trans m.inputAbf),
      Option.some.inj (hamount.symm.trans m.amount)]
    rfl
  · show q.outputs.map (·.toLiquidexTxOutSecrets) = _
    rw [ho]
    show [(⟨o.asset, o.assetBlinder, o.satoshi⟩ : LiquidexTxOutSecrets)] = _
    rw [← Option.some.inj hasset', ← Option.some.inj habf', ← Option.some.inj hamount']
    rfl

/-! ## Blinding -/

/-- An amount with its factors, modulo the order of the curve. -/
def TxOutSecrets.opening (s : TxOutSecrets) : Opening (ZMod curveOrder) :=
  ⟨(s.value.toNat : ZMod curveOrder), (s.assetBf.val : ZMod curveOrder),
    (s.valueBf.val : ZMod curveOrder)⟩

/-- `blind_last`: factors are drawn for all outputs with a blinding key, and the last value factor
is computed from the inputs whose openings are known, these outputs, and the scalars. -/
def Pset.blindLast (draw : Nat → Tweak × Tweak) (known : InpTxoutSec) (p : Pset) :
    List (Option (Opening (ZMod curveOrder))) :=
  Opening.blind (fun i => (((draw i).1.val : ZMod curveOrder), ((draw i).2.val : ZMod curveOrder)))
    (((List.range p.inputs.length).filterMap fun i => known.lookup i).map (·.opening))
    (p.scalars.map fun s => (s.val : ZMod curveOrder)).sum 0 []
    (p.outputs.map fun o => o.blindingKey.map fun _ => ((o.amount.getD 0).toNat : ZMod curveOrder))

theorem Pset.terms_blindLast {p : Pset} (draw : Nat → Tweak × Tweak) (known : InpTxoutSec)
    (hmarked : ∃ o ∈ p.outputs, o.blindingKey.isSome = true) :
    Opening.terms (p.blindLast draw known).reduceOption = Opening.terms
        (((List.range p.inputs.length).filterMap fun i => known.lookup i).map (·.opening)) +
      (p.scalars.map fun s => (s.val : ZMod curveOrder)).sum := by
  have hany : (p.outputs.map fun o => o.blindingKey.map fun _ =>
      ((o.amount.getD 0).toNat : ZMod curveOrder)).any (·.isSome) = true := by
    simpa using hmarked
  exact Opening.terms_blind_nil hany

theorem Pset.tail_blindLast {p : Pset} {o : PsetOutput} {rest : List PsetOutput}
    (houtputs : p.outputs = o :: rest) (hkey : o.blindingKey = none) (draw : Nat → Tweak × Tweak)
    (known : InpTxoutSec) :
    (p.blindLast draw known).tail.reduceOption = (p.blindLast draw known).reduceOption := by
  rw [Pset.blindLast, houtputs, map_cons, hkey, Option.map_none, Opening.blind, tail_cons,
    reduceOption_cons_of_none]

namespace TxBuilder

theorem cast_sub_mod {n : Nat} (a b : Nat) (hn : 0 < n) :
    (((a + n - b % n) % n : Nat) : ZMod n) = a - b := by
  have hle : b % n ≤ a + n := (Nat.mod_lt b hn).le.trans (Nat.le_add_left n a)
  rw [ZMod.natCast_mod, Nat.cast_sub hle, Nat.cast_add, ZMod.natCast_self, ZMod.natCast_mod,
    add_zero]

theorem term_makerSecrets (m : MakerSide) : (makerSecrets m).opening.term = 0 := by
  have hvbf : ((makerSecrets m).valueBf.val : ZMod curveOrder) =
      0 - (m.abf.val * m.satoshi.toNat : Nat) := by
    rw [← Nat.cast_zero, ← cast_sub_mod 0 (m.abf.val * m.satoshi.toNat) (by decide), Nat.zero_add]
    rfl
  rw [Opening.term, TxOutSecrets.opening, hvbf, Nat.cast_mul]
  show (m.abf.val : ZMod curveOrder) * m.satoshi.toNat + _ = 0
  ring

theorem cast_scalarOffset (coin paid : TxOutSecrets) :
    ((scalarOffset coin paid.value paid.assetBf paid.valueBf).val : ZMod curveOrder) =
      coin.opening.term - paid.opening.term := by
  have hcast := cast_sub_mod (coin.assetBf.val * coin.value.toNat + coin.valueBf.val)
    (paid.assetBf.val * paid.value.toNat + paid.valueBf.val) (n := curveOrder) (by decide)
  refine hcast.trans ?_
  simp [Opening.term, TxOutSecrets.opening]

section Taker

variable {x mx : Builder} {w mw : Wollet} {t mt : TxBuilder} {v : Validator} {b b' : Build}
variable {coin paid : TxOutSecrets} {p : Pset}

/-- What the taker reads of the maker's input and output. -/
structure Reads (coin paid : TxOutSecrets) (f : Took x w t b p b') : Prop where
  asset : f.input.asset = some coin.asset
  amount : f.input.amount = some coin.value
  output : f.output.asset = some paid.asset ∧ f.output.amount = some paid.value
  unkeyed : f.output.blindingKey = none
  offered : f.drafted.offered = ⟨coin.asset, coin.value, coin.assetBf⟩
  wanted : f.drafted.wanted = ⟨paid.asset, paid.value, paid.assetBf⟩
  scalars : p.scalars = [scalarOffset coin paid.value paid.assetBf paid.valueBf]

theorem Took.reads (f : Took x w t b p b') (h : Offers mx mw mt v coin paid f.proposal) :
    Reads coin paid f := by
  obtain ⟨hinputs, houtputs, hscalars⟩ := h.parts
  obtain ⟨tx, txin, txout, scalar, i, is, o, os, -, -, -, hscalar, hi, ho, hpset⟩ :=
    LiquidexProposal.toPset_ok f.toPset
  rw [hinputs] at hi
  obtain ⟨rfl, -⟩ := cons.inj hi
  rw [houtputs] at ho
  obtain ⟨rfl, -⟩ := cons.inj ho
  have hinputs := f.inputs
  have houtputs := f.outputs
  rw [hpset] at hinputs houtputs
  have hinput := singleton_inj.1 hinputs
  have houtput := singleton_inj.1 houtputs
  have hasset : f.input.asset = some coin.asset := by
    rw [← hinput]
    rfl
  have hamount : f.input.amount = some coin.value := by
    rw [← hinput]
    rfl
  have habf : f.input.abf = some coin.assetBf := by
    rw [← hinput]
    rfl
  have hasset' : f.output.asset = some paid.asset := by
    rw [← houtput]
    rfl
  have hamount' : f.output.amount = some paid.value := by
    rw [← houtput]
    rfl
  have habf' : f.output.abf = some paid.assetBf := by
    rw [← houtput]
    rfl
  have hoffers := f.drafted.offers
  have hwants := f.drafted.wants
  rw [hasset, hamount, habf] at hoffers
  rw [hasset', hamount', habf'] at hwants
  refine ⟨hasset, hamount, ⟨hasset', hamount'⟩, ?_, (Except.ok.inj hoffers).symm,
    (Except.ok.inj hwants).symm, ?_⟩
  · rw [← houtput]
    rfl
  · rw [f.sameScalars, f.drafted.scalars, ← hscalars, hscalar]
    show f.pset.scalars = _
    rw [hpset]

theorem filterMap_range_getElem? {α β : Type} (f : α → β) (l : List α) :
    (List.range l.length).filterMap (fun i => l[i]?.map f) = l.map f := by
  induction l with
  | nil => rfl
  | cons a l ih =>
    rw [length_cons, range_succ_eq_map, filterMap_cons, filterMap_map]
    simpa [Function.comp_def] using ih

theorem Took.known (f : Took x w t (start w) p b') :
    (List.range p.inputs.length).filterMap (fun i => b'.inpTxoutSec.lookup i) =
      makerSecrets f.drafted.offered ::
        (takerCoins x f.all f.drafted.wanted).map (·.unblinded) := by
  -- the maker's input stands first, as one more coin
  let coins : List Coin := ⟨f.input.previousOutput, makerSecrets f.drafted.offered⟩ ::
    (takerCoins x f.all f.drafted.wanted).map (·.coin)
  have hsecrets : b'.inpTxoutSec = HashMap.ofPairs (openings 0 coins) := by
    rw [f.sameSecrets, f.drafted.secrets]
    show HashMap.extend _ (openings f.pset.inputs.length _) = _
    rw [f.inputs]
    rfl
  have hlength : p.inputs.length = coins.length := by
    simpa [coins] using congrArg length f.outpoints
  have hlookup (i : Nat) : b'.inpTxoutSec.lookup i = coins[i]?.map (·.secrets) := by
    rw [hsecrets]
    refine Option.ext fun s => ?_
    rw [lookup_openings]
    simp
  rw [hlength]
  simp only [hlookup]
  rw [filterMap_range_getElem?]
  simp [coins, WalletTxOut.coin, Function.comp_def]

/-- **The blinding balances**, whatever factors the taker draws. -/
theorem Took.blinding (f : Took x w t (start w) p b') (hreads : Reads coin paid f)
    (hmarked : ∃ o ∈ p.outputs, o.blindingKey.isSome = true) (draw : Nat → Tweak × Tweak) :
    coin.opening.term +
        Opening.terms ((takerCoins x f.all f.drafted.wanted).map (·.unblinded.opening)) =
      paid.opening.term + Opening.terms (p.blindLast draw b'.inpTxoutSec).tail.reduceOption := by
  have hmakerKey : ∃ o rest, p.outputs = o :: rest ∧ o.blindingKey = none := by
    obtain ⟨-, hkeys⟩ := f.keys
    cases houtputs : p.outputs with
    | nil =>
      rw [houtputs] at hkeys
      cases hkeys
    | cons o rest =>
      rw [houtputs] at hkeys
      exact ⟨o, rest, rfl, (cons.inj hkeys).1.trans hreads.unkeyed⟩
  obtain ⟨o, rest, houtputs, hnone⟩ := hmakerKey
  have hknown : Opening.terms (((range p.inputs.length).filterMap fun i =>
      b'.inpTxoutSec.lookup i).map (·.opening)) =
        Opening.terms ((takerCoins x f.all f.drafted.wanted).map (·.unblinded.opening)) := by
    rw [f.known, map_cons, Opening.terms_cons, term_makerSecrets, zero_add, map_map]
    rfl
  rw [Pset.tail_blindLast houtputs hnone, Pset.terms_blindLast draw _ hmarked, hknown,
    hreads.scalars, map_singleton, sum_singleton, cast_scalarOffset]
  ring

end Taker

/-! ## Amounts -/

/-- Adding up coins until they cover an amount stays within a `u64`. -/
def CoversWithin (satoshi : UInt64) (coins : List WalletTxOut) : Prop :=
  ∀ n, total (·.unblinded.value) (coins.take n) < satoshi.toNat →
    total (·.unblinded.value) (coins.take (n + 1)) < 2 ^ 64

variable {satoshi satoshiIn : UInt64} {u : WalletTxOut} {rest : List WalletTxOut}

theorem takenUntil_of_covered (h : satoshiIn + u.unblinded.value ≥ satoshi) :
    takenUntil false satoshi (u :: rest) satoshiIn = [u] := by
  simp [takenUntil, h]

theorem takenUntil_of_not_covered (h : ¬ satoshiIn + u.unblinded.value ≥ satoshi) :
    takenUntil false satoshi (u :: rest) satoshiIn =
      u :: takenUntil false satoshi rest (satoshiIn + u.unblinded.value) := by
  simp [takenUntil, h]

theorem takenUntil_fits_iff (l : List WalletTxOut) (satoshiIn : UInt64)
    (hlt : satoshiIn < satoshi) :
    satoshiIn.toNat + total (·.unblinded.value) (takenUntil false satoshi l satoshiIn) < 2 ^ 64 ↔
      ∀ n, satoshiIn.toNat + total (·.unblinded.value) (l.take n) < satoshi.toNat →
        satoshiIn.toNat + total (·.unblinded.value) (l.take (n + 1)) < 2 ^ 64 := by
  induction l generalizing satoshiIn with
  | nil =>
    have hbound := satoshiIn.toNat_lt
    exact iff_of_true hbound fun _ _ => hbound
  | cons u rest ih =>
    have hin := UInt64.lt_iff_toNat_lt.1 hlt
    by_cases hfits : satoshiIn.toNat + u.unblinded.value.toNat < 2 ^ 64
    · have hsum : (satoshiIn + u.unblinded.value).toNat =
          satoshiIn.toNat + u.unblinded.value.toNat := by
        rw [UInt64.toNat_add, Nat.mod_eq_of_lt hfits]
      have hfirst : satoshiIn.toNat + total (·.unblinded.value) ((u :: rest).take 1) < 2 ^ 64 := by
        rw [take_succ_cons, total_cons]
        exact hfits
      by_cases hcovered : satoshiIn + u.unblinded.value ≥ satoshi
      · have hle := UInt64.le_iff_toNat_le.1 hcovered
        rw [takenUntil_of_covered hcovered]
        refine iff_of_true hfirst fun n hn => ?_
        cases n with
        | zero => exact hfirst
        | succ n =>
          rw [take_succ_cons, total_cons] at hn
          omega
      · have hrest := ih _ (UInt64.not_le.1 hcovered)
        rw [takenUntil_of_not_covered hcovered, total_cons, ← Nat.add_assoc, ← hsum, hrest]
        constructor
        · intro h n hn
          cases n with
          | zero => exact hfirst
          | succ n =>
            rw [take_succ_cons, total_cons, ← Nat.add_assoc, ← hsum] at hn ⊢
            exact h n hn
        · intro h n hn
          have hnext := h (n + 1)
          rw [take_succ_cons, total_cons, take_succ_cons, total_cons, ← Nat.add_assoc,
            ← Nat.add_assoc, ← hsum] at hnext
          exact hnext hn
    · -- the sum wraps at this coin, and the coin is taken
      refine iff_of_false ?_ ?_
      · have hmem : u.unblinded.value.toNat ≤
            total (·.unblinded.value) (takenUntil false satoshi (u :: rest) satoshiIn) := by
          by_cases hcovered : satoshiIn + u.unblinded.value ≥ satoshi
          · rw [takenUntil_of_covered hcovered, total_cons]
            omega
          · rw [takenUntil_of_not_covered hcovered, total_cons]
            omega
        omega
      · intro h
        have hfirst := h 0
        rw [take_succ_cons, total_cons] at hfirst
        exact hfits (hfirst hin)

theorem takenUntil_lt_iff (satoshi : UInt64) (l : List WalletTxOut) :
    total (·.unblinded.value) (takenUntil false satoshi l 0) < 2 ^ 64 ↔ CoversWithin satoshi l := by
  by_cases hpos : (0 : UInt64) < satoshi
  · have hfits := takenUntil_fits_iff l 0 hpos
    simpa [CoversWithin] using hfits
  · have hzero : satoshi.toNat = 0 := by
      rw [UInt64.lt_iff_toNat_lt] at hpos
      exact Nat.eq_zero_of_not_pos hpos
    refine iff_of_true ?_ ?_
    · cases l with
      | nil => exact Nat.two_pow_pos 64
      | cons u rest =>
        have hcovered : (0 : UInt64) + u.unblinded.value ≥ satoshi := by
          rw [ge_iff_le, UInt64.le_iff_toNat_le, hzero]
          exact Nat.zero_le _
        rw [takenUntil_of_covered hcovered, total_cons]
        exact u.unblinded.value.toNat_lt
    · intro n hn
      rw [hzero] at hn
      exact absurd hn (Nat.not_lt_zero _)

section Amounts

variable {x : Builder} {w : Wollet} {t : TxBuilder} {b b' : Build} {coin paid : TxOutSecrets}
variable {p : Pset}

variable {utxos : HashMap OutPoint WalletTxOut} {wanted : MakerSide}

theorem mem_wantedCoins {u : WalletTxOut} (h : u ∈ wantedCoins x utxos wanted) :
    u.unblinded.asset = wanted.asset := by
  unfold wantedCoins at h
  split at h
  · exact (mem_coinsOf.1 ((takenUntil_isPrefix _ _ _ _).subset h)).2
  · cases h

theorem coinsWorth_coin {l : List WalletTxOut} {c : AssetId} (h : ∀ u ∈ l, u.unblinded.asset = c)
    (a : AssetId) : amountOf (fun c : Coin => c.secrets.asset) Coin.value (l.map (·.coin)) a =
      if c = a then total (·.unblinded.value) l else 0 := by
  have hcoins : ∀ e ∈ l.map (·.coin), e.secrets.asset = c := by
    intro e he
    obtain ⟨u, hu, rfl⟩ := mem_map.1 he
    exact h u hu
  rw [amountOf_of_asset hcoins, total_coins]
  rfl

theorem IsWantedChange.asset {change : Option Recipient}
    (h : IsWantedChange x w utxos wanted change) :
    ∀ r ∈ change.toList, r.asset = wanted.asset := by
  intro r hr
  unfold IsWantedChange at h
  split at h
  · exact h.asset r (Option.mem_toList.1 hr)
  · rw [h] at hr
    cases hr

theorem paidOf_unmarked_output (r : Recipient) (a : AssetId) :
    r.output.unmarked.paidOf a = if r.asset = a then r.satoshi.toNat else 0 := by
  simp [PsetOutput.paidOf, PsetOutput.unmarked, Recipient.output]

theorem forall_amounts_iff {asset policyAsset : AssetId} {m n i o : Nat} :
    (∀ a, (if asset = a then m else 0) + (if policyAsset = a then i else 0) =
        (if asset = a then n else 0) + if policyAsset = a then o else 0) ↔
      if asset = policyAsset then m + i = n + o else m = n ∧ i = o := by
  by_cases hasset : asset = policyAsset
  · subst hasset
    rw [if_pos rfl]
    refine ⟨fun h => ?_, fun h a => ?_⟩
    · simpa using h asset
    · split
      · exact h
      · rfl
  · rw [if_neg hasset]
    refine ⟨fun h => ⟨?_, ?_⟩, fun h a => ?_⟩
    · simpa [Ne.symm hasset] using h asset
    · simpa [hasset] using h policyAsset
    · rw [h.1, h.2]

/-- A change computed modulo `2 ^ 64` settles a balance if the exact one fits. -/
theorem settled_iff (coins : Nat) (offered owed fee : UInt64) : coins = owed.toNat +
        ((offered + UInt64.ofNat coins - (owed + offered) - fee).toNat + fee.toNat) ↔
      owed.toNat + fee.toNat ≤ coins ∧ coins < owed.toNat + fee.toNat + 2 ^ 64 := by
  have hfee := fee.toNat_lt
  simp only [UInt64.toNat_sub, UInt64.toNat_add, UInt64.toNat_ofNat']
  omega

variable (f : Took x w t b p b') (hreads : Reads coin paid f)

include hreads

theorem Took.spent_coins :
    p.inputs.map (·.spent) = ((⟨f.input.previousOutput, coin⟩ : Coin) ::
      (takerCoins x f.all f.drafted.wanted).map (·.coin)).map (·.spent) := by
  rw [f.map_spent, PsetInput.spent, hreads.asset, hreads.amount, map_cons, map_map]
  rfl

theorem Took.spent_eq (a : AssetId) :
    p.spent a = (if coin.asset = a then coin.value.toNat else 0) + ((if paid.asset = a then
          total (·.unblinded.value) (wantedCoins x f.all f.drafted.wanted) else 0) +
        if x.env.policyAsset = a then
          total (·.unblinded.value) (coinsOf x f.all x.env.policyAsset) else 0) := by
  rw [Pset.spent, sum_spentOf (f.spent_coins hreads), coinsWorth, amountOf_cons, takerCoins,
    map_append, amountOf_append, coinsWorth_coin (fun _ hu => mem_wantedCoins hu),
    coinsWorth_coin (fun _ hu => (mem_coinsOf.1 hu).2), hreads.wanted]
  rfl

theorem Took.paid_eq (a : AssetId) :
    p.paid a = (if coin.asset = a then coin.value.toNat else 0) + ((if paid.asset = a then
          paid.value.toNat + total (·.satoshi) f.drafted.change.toList else 0) +
        if x.env.policyAsset = a then
          (f.sums.1 - f.sums.2 - f.fee).toNat + f.fee.toNat else 0) := by
  have hunmarked : p.paid a = ((p.outputs.map (·.unmarked)).map (·.paidOf a)).sum := by
    rw [map_map]
    rfl
  have hmaker : f.output.unmarked.paidOf a = if paid.asset = a then paid.value.toNat else 0 := by
    simp [PsetOutput.paidOf, PsetOutput.unmarked, hreads.output.1, hreads.output.2]
  have hreceive : f.drafted.receive.output.unmarked.paidOf a =
      if coin.asset = a then coin.value.toNat else 0 := by
    obtain ⟨hsatoshi, hasset⟩ := f.drafted.isReceive.amount
    rw [paidOf_unmarked_output, hsatoshi, hasset, hreads.offered]
  have hchange : ((f.drafted.change.toList.map (·.output.unmarked)).map (·.paidOf a)).sum =
      if paid.asset = a then total (·.satoshi) f.drafted.change.toList else 0 := by
    have hget := sum_paidOf f.drafted.change.toList a
    rw [recipientsGet, amountOf_of_asset f.drafted.isChange.asset, hreads.wanted] at hget
    rw [← hget, map_map, map_map]
    rfl
  have hsettled :
      (f.drafted.settled.withAmount (f.sums.1 - f.sums.2 - f.fee)).output.unmarked.paidOf a =
        if x.env.policyAsset = a then (f.sums.1 - f.sums.2 - f.fee).toNat else 0 := by
    rw [paidOf_unmarked_output, Recipient.withAmount, f.drafted.isSettled.amount.2]
  rw [hunmarked, f.allOutputs]
  simp only [map_cons, map_append, cons_append, sum_cons, sum_append,
    map_nil, sum_nil, hmaker, hreceive, hchange, hsettled, paidOf_feeOutput]
  split <;> split <;> split <;> omega

/-- What the taker owes the maker of the policy asset. -/
def policyOwed (policyAsset : AssetId) (paid : TxOutSecrets) : UInt64 :=
  if paid.asset = policyAsset then paid.value else 0

/-- No sum that decides on an amount wraps for good: the coins for what the maker wants add up
within a `u64`, and the coins of the policy asset pay what is owed of it and the fee, with a change
that is a `u64`. -/
structure TakeFits (x : Builder) (utxos : HashMap OutPoint WalletTxOut) (paid : TxOutSecrets)
    (fee : UInt64) : Prop where
  wanted : paid.asset ≠ x.env.policyAsset → CoversWithin paid.value (coinsOf x utxos paid.asset)
  least : (policyOwed x.env.policyAsset paid).toNat + fee.toNat ≤
    total (·.unblinded.value) (coinsOf x utxos x.env.policyAsset)
  most : total (·.unblinded.value) (coinsOf x utxos x.env.policyAsset) <
    (policyOwed x.env.policyAsset paid).toNat + fee.toNat + 2 ^ 64

theorem Took.settled_iff :
    total (·.unblinded.value) (coinsOf x f.all x.env.policyAsset) =
        (policyOwed x.env.policyAsset paid).toNat +
          ((f.sums.1 - f.sums.2 - f.fee).toNat + f.fee.toNat) ↔
      (policyOwed x.env.policyAsset paid).toNat + f.fee.toNat ≤
          total (·.unblinded.value) (coinsOf x f.all x.env.policyAsset) ∧
        total (·.unblinded.value) (coinsOf x f.all x.env.policyAsset) <
          (policyOwed x.env.policyAsset paid).toNat + f.fee.toNat + 2 ^ 64 := by
  have hsums := f.drafted.sums_eq
  rw [hreads.wanted, hreads.offered] at hsums
  rw [hsums]
  exact TxBuilder.settled_iff _ _ _ _

theorem Took.wanted_iff (hasset : paid.asset ≠ x.env.policyAsset) :
    total (·.unblinded.value) (wantedCoins x f.all f.drafted.wanted) =
        paid.value.toNat + total (·.satoshi) f.drafted.change.toList ↔
      CoversWithin paid.value (coinsOf x f.all paid.asset) := by
  have hchange := f.drafted.isChange
  have hcoins : wantedCoins x f.all f.drafted.wanted =
      takenUntil false paid.value (coinsOf x f.all paid.asset) 0 := by
    rw [wantedCoins, hreads.wanted, if_pos hasset]
  rw [IsWantedChange, hcoins, hreads.wanted, if_pos hasset] at hchange
  have htotal : paid.value.toNat + total (·.satoshi) f.drafted.change.toList =
      total (·.unblinded.value) (takenUntil false paid.value (coinsOf x f.all paid.asset) 0) %
        2 ^ 64 := by
    rw [← UInt64.toNat_ofNat']
    exact hchange.total
  rw [hcoins, ← takenUntil_lt_iff]
  omega

theorem Took.wanted_policy (hasset : paid.asset = x.env.policyAsset) :
    wantedCoins x f.all f.drafted.wanted = [] ∧ f.drafted.change = none := by
  have hchange := f.drafted.isChange
  have hsame : f.drafted.wanted.asset = x.env.policyAsset := by
    rw [hreads.wanted]
    exact hasset
  rw [IsWantedChange, if_neg (not_not_intro hsame)] at hchange
  exact ⟨if_neg (not_not_intro hsame), hchange⟩

/-- **Amounts balance if they fit.** -/
theorem Took.amounts_iff :
    (∀ a, p.spent a = p.paid a) ↔ TakeFits x f.all paid f.fee := by
  have hsettled := f.settled_iff hreads
  simp only [f.spent_eq hreads, f.paid_eq hreads, Nat.add_left_cancel_iff, forall_amounts_iff]
  by_cases hasset : paid.asset = x.env.policyAsset
  · obtain ⟨hcoins, hchange⟩ := f.wanted_policy hreads hasset
    have howed : policyOwed x.env.policyAsset paid = paid.value := if_pos hasset
    rw [if_pos hasset, hcoins, hchange, ← howed]
    show 0 + _ = _ + 0 + _ ↔ _
    rw [Nat.zero_add, Nat.add_zero, hsettled]
    exact ⟨fun h => ⟨fun hne => absurd hasset hne, h.1, h.2⟩, fun h => ⟨h.least, h.most⟩⟩
  · have hwanted := f.wanted_iff hreads hasset
    have howed : policyOwed x.env.policyAsset paid = 0 := if_neg hasset
    conv_lhs at hsettled => rw [howed, UInt64.toNat_zero, Nat.zero_add]
    rw [if_neg hasset, hwanted, hsettled]
    exact ⟨fun h => ⟨fun _ => h.1, h.2.1, h.2.2⟩, fun h => ⟨h.wanted hasset, h.least, h.most⟩⟩

end Amounts

/-! ## Main theorem -/

/-- `blind_last` fails if there is nothing to blind. -/
def BlindsMarked (x : Builder) : Prop :=
  ∀ p known, x.blindLast p known = .ok () → ∃ o ∈ p.outputs, o.blindingKey.isSome = true

/-- A taken proposal balances. The inputs are the maker's coin and coins of the taker's, and the
outputs are the maker's, what the taker receives, and more of the taker's. -/
structure TakeBalances (x : Builder) (w : Wollet) (coin paid : TxOutSecrets) (p : Pset)
    (known : InpTxoutSec) : Prop where
  amounts : ∀ a, p.spent a = p.paid a
  pays : p.outputs.head?.map (fun o => (o.asset, o.amount)) =
    some (some paid.asset, some paid.value)
  receives : ∃ r, IsOwn x w false coin.value coin.asset r ∧
    p.outputs[1]?.map (·.unmarked) = some r.output.unmarked
  blinding : ∃ maker : OutPoint, ∃ coins : List WalletTxOut,
    p.inputs.map (·.spent) = ((⟨maker, coin⟩ : Coin) :: coins.map (·.coin)).map (·.spent) ∧
    (∃ all, w.utxosMap = .ok all ∧ ∀ u ∈ coins, u ∈ all.values) ∧
    ∀ draw, Opening.terms (coin.opening :: coins.map (·.unblinded.opening)) =
      Opening.terms (some paid.opening :: (p.blindLast draw known).tail).reduceOption

section Main

variable {x mx : Builder} {w mw : Wollet} {t mt : TxBuilder} {v : Validator} {b' : Build}
variable {coin paid : TxOutSecrets} {p : Pset} {proposal : LiquidexProposal}

theorem mem_takerCoins {utxos : HashMap OutPoint WalletTxOut} {wanted : MakerSide}
    {u : WalletTxOut} (h : u ∈ takerCoins x utxos wanted) : u ∈ utxos.values := by
  rcases mem_append.1 h with h | h
  · unfold wantedCoins at h
    split at h
    · exact (mem_coinsOf.1 ((takenUntil_isPrefix _ _ _ _).subset h)).1
    · cases h
  · exact (mem_coinsOf.1 h).1

theorem Took.first_outputs (f : Took x w t (start w) p b') (hreads : Reads coin paid f) :
    p.outputs.head?.map (fun o => (o.asset, o.amount)) = some (some paid.asset, some paid.value) ∧
      p.outputs[1]?.map (·.unmarked) = some f.drafted.receive.output.unmarked := by
  have houtputs := f.allOutputs
  constructor
  · have hhead := congrArg (fun l : List PsetOutput => l.head?.map fun o => (o.asset, o.amount))
      houtputs
    simpa [Function.comp_def, PsetOutput.unmarked, hreads.output.1, hreads.output.2] using hhead
  · have hsecond := congrArg (fun l : List PsetOutput => l[1]?) houtputs
    simpa using hsecond

theorem Took.balances_iff (f : Took x w t (start w) p b') (hreads : Reads coin paid f)
    (hblinds : BlindsMarked x) :
    TakeBalances x w coin paid p b'.inpTxoutSec ↔ ∀ a, p.spent a = p.paid a := by
  refine ⟨fun h => h.amounts, fun h => ?_⟩
  obtain ⟨hpays, hreceives⟩ := f.first_outputs hreads
  have hown := f.drafted.isReceive
  rw [hreads.offered] at hown
  refine ⟨h, hpays, ⟨_, hown, hreceives⟩, _, _, f.spent_coins hreads,
    ⟨f.all, f.utxosMap, fun _ hu => mem_takerCoins hu⟩, fun draw => ?_⟩
  rw [Opening.terms_cons, reduceOption_cons_of_some, Opening.terms_cons]
  exact f.blinding hreads (hblinds _ _ f.blinds) draw

/-- **A taken proposal balances exactly if its amounts fit.** The transaction of a taker who takes a
validated proposal balances, in amounts and in blinding factors, if the coins for what the maker
wants add up within a `u64`, and those of the policy asset pay what is owed and the fee. -/
theorem liquidexTake_balances_iff (hblinds : BlindsMarked x)
    (hoffers : Offers mx mw mt v coin paid proposal) (hproposals : t.liquidexProposals = [proposal])
    (h : t.finishLiquidexTake x w (start w) = .ok p b') :
    TakeBalances x w coin paid p b'.inpTxoutSec ↔
      ∀ all fee, w.utxosMap = .ok all → t.TakeFee x w (start w) fee → TakeFits x all paid fee := by
  obtain ⟨f⟩ := finishLiquidexTake_ok h
  obtain rfl := singleton_inj.1 (f.proposals.symm.trans hproposals)
  have hreads := f.reads hoffers
  rw [f.balances_iff hreads hblinds, f.amounts_iff hreads]
  constructor
  · intro hfits all fee hall hfee
    rw [f.utxosMap] at hall
    obtain rfl := Except.ok.inj hall
    rw [hfee.unique f.isFee]
    exact hfits
  · intro hfits
    exact hfits f.all f.fee f.utxosMap f.isFee

end Main

end TxBuilder

/-! ## A fee that wraps -/

namespace FeeWraps

def coin : TxOutSecrets := ⟨2, ⟨31, by decide⟩, 500, ⟨32, by decide⟩⟩

def paid : TxOutSecrets := ⟨1, ⟨33, by decide⟩, 1000, ⟨34, by decide⟩⟩

def own : TxOutSecrets := ⟨1, ⟨35, by decide⟩, 100000, ⟨36, by decide⟩⟩

def output (script : Script) : TxOut :=
  ⟨.confidential 5, .confidential 6, .confidential ⟨false, 1⟩, script, none⟩

def descriptor (script : Script) : ConfidentialDescriptor :=
  Concrete.descriptor (Concrete.scripts .external false fun _ => script) none (some 1)

def env (txid : Txid) (script : Script) (secrets : TxOutSecrets) : Env :=
  { Concrete.env (fun _ => txid) [] with
    secp := ⟨fun key => ⟨false, key⟩, fun _ _ => some secrets⟩
    descriptor := ⟨.desc (descriptor script), false⟩ }

/-- A builder that blinds what is marked, and whose fee is the largest `u64` at the largest rate, as
a conversion of an infinite `f32` is. -/
def builder (env : Env) : Builder :=
  { Concrete.builder env with
    blindMaker := fun _ _ => .ok (paid.assetBf, paid.valueBf)
    calculateFee := fun weight feeRate =>
      if feeRate = 0x7f7fffff then 0xffffffffffffffff else UInt64.ofNat ((weight + 39) / 40)
    blindLast := fun p _ =>
      if p.outputs.any (·.blindingKey.isSome) then .ok () else .error .blind }

def makerEnv : Env := env 7 (Concrete.script 0) coin

def maker : Wollet := Concrete.funded makerEnv [⟨[], [output (Concrete.script 0)]⟩]

def making : TxBuilder :=
  { TxBuilder.new 1 with
    isLiquidexMake := true
    selectedUtxos := some [⟨7, 0⟩]
    recipients := [⟨1000, Concrete.script 1, some ⟨false, 1⟩, 1⟩] }

def v : Validator where
  zkp :=
    { newBlinded := fun _ _ => 5
      pedersen := fun _ _ _ => 6
      blindAssetProofVerify := fun _ _ _ => true
      blindValueProofVerify := fun _ _ _ _ => true }
  decode := fun _ => .ok (⟨[⟨⟨7, 0⟩, .null⟩], [output (Concrete.script 1)]⟩, true)
  txid := fun _ => 7

def made : Pset := (Concrete.arrival (making.finishLiquidexMake (builder makerEnv) maker)
  (TxBuilder.start maker) .new).1

def signed : SignedPset := ⟨made, .ok "00", true, some [], some []⟩

theorem makes : Concrete.arrives (making.finishLiquidexMake (builder makerEnv) maker)
    (TxBuilder.start maker) = true := by
  decide

def takerEnv : Env := env 8 (Concrete.script 2) own

def x : Builder := builder takerEnv

def taker : Wollet := Concrete.funded takerEnv [⟨[], [output (Concrete.script 2)]⟩]

def stated : UnvalidatedProposal where
  version := 1
  tx := "00"
  inputs := [⟨⟨coin.asset, coin.assetBf, coin.value⟩, some []⟩]
  outputs := [⟨⟨paid.asset, paid.assetBf, paid.value⟩, some []⟩]
  scalars := made.scalars

theorem fromPset_signed : UnvalidatedProposal.fromPset signed = .ok stated := by
  rfl

def proposal : LiquidexProposal := stated.validated v

theorem validate_stated : stated.validate v ⟨[], [output (Concrete.script 0)]⟩ = .ok proposal := by
  simp [UnvalidatedProposal.validate, UnvalidatedProposal.getOutput, UnvalidatedProposal.getInput,
    UnvalidatedProposal.getPreviousOutpoint, UnvalidatedProposal.transaction,
    ProvedSecrets.verify, okOr, require, proposal, stated, output, v, bind, Except.bind, pure,
    Except.pure]

def taking (feeRate : FeeRate) : TxBuilder :=
  { TxBuilder.new 1 with feeRate := feeRate, liquidexProposals := [proposal] }

theorem blindsMarked : TxBuilder.BlindsMarked x := by
  intro p known h
  by_cases hany : p.outputs.any (·.blindingKey.isSome) = true
  · exact any_eq_true.1 hany
  · have herror : x.blindLast p known = .error .blind := if_neg hany
    rw [herror] at h
    cases h

theorem offers : Offers (builder makerEnv) maker making v coin paid proposal := by
  have hmake := run_arrival .new makes
  obtain ⟨m⟩ := TxBuilder.finishLiquidexMake_ok hmake
  have houtpoint := singleton_inj.1 (Option.some.inj m.selected)
  have hcoin : m.utxo.unblinded = coin := by
    have hread : (value maker.utxosMap ∅).lookup ⟨7, 0⟩ = some m.utxo := by
      rw [m.utxosMap, houtpoint]
      exact m.lookup
    have hunblinded : ((value maker.utxosMap ∅).lookup ⟨7, 0⟩).map (·.unblinded) = some coin := by
      rfl
    rw [hread] at hunblinded
    exact Option.some.inj hunblinded
  have hpaid : m.paid = paid := by
    obtain ⟨habf, hvbf⟩ := Prod.mk.inj (Except.ok.inj m.drawn)
    have hrecipient := singleton_inj.1 m.recipients
    rw [TxBuilder.Made.paid, ← hrecipient, ← habf, ← hvbf]
    exact rfl
  exact ⟨signed, stated, _, m, hmake, hcoin, hpaid, fromPset_signed, .inl ⟨_, validate_stated⟩⟩

def took (feeRate : FeeRate) : Pset × Build :=
  Concrete.arrival ((taking feeRate).finishLiquidexTake x taker) (TxBuilder.start taker) .new

/-- At the largest rate, the policy asset of the outputs exceeds that of the inputs by `2 ^ 64`. -/
theorem fee_not_paid : TxBuilder.BlindsMarked x ∧
    Offers (builder makerEnv) maker making v coin paid proposal ∧
    (taking 0x7f7fffff).liquidexProposals = [proposal] ∧
    ∃ p b', (taking 0x7f7fffff).finishLiquidexTake x taker (TxBuilder.start taker) = .ok p b' ∧
      p.paid 1 = p.spent 1 + 2 ^ 64 ∧
      ¬ TxBuilder.TakeBalances x taker coin paid p b'.inpTxoutSec := by
  have hexceeds : (took 0x7f7fffff).1.paid 1 = (took 0x7f7fffff).1.spent 1 + 2 ^ 64 := by
    decide
  refine ⟨blindsMarked, offers, rfl, _, _, run_arrival .new (by decide), hexceeds, ?_⟩
  intro h
  have hsame : (took 0x7f7fffff).1.spent 1 = (took 0x7f7fffff).1.paid 1 := h.amounts 1
  omega

theorem takeFee_default : (taking 0x42c80000).TakeFee x taker (TxBuilder.start taker) 39 :=
  ⟨_, _, _, run_arrival (0, 0) (by decide), rfl, by decide⟩

theorem liquidexTake_balances_iff_defaultRate :
    TxBuilder.TakeBalances x taker coin paid (took 0x42c80000).1
      (took 0x42c80000).2.inpTxoutSec := by
  have htakes : arrives ((taking 0x42c80000).finishLiquidexTake x taker)
      (TxBuilder.start taker) = true := by
    decide
  have hiff := TxBuilder.liquidexTake_balances_iff (t := taking 0x42c80000) blindsMarked offers rfl
    (run_arrival .new htakes)
  refine hiff.2 ?_
  intro all fee hall hfee
  obtain rfl := takeFee_default.unique hfee
  have hcoins : total (·.unblinded.value)
      (coinsOf x (value taker.utxosMap ∅) x.env.policyAsset) = 100000 := by
    decide
  rw [hall, value] at hcoins
  refine ⟨fun hother => absurd rfl hother, ?_, ?_⟩
  · rw [hcoins]
    decide
  · rw [hcoins]
    decide

end FeeWraps

end Swk
