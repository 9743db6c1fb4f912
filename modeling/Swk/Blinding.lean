import Swk.Replace

/-!
# Confidential inputs need a blinded output

A transaction that spends a confidential output balances only if one of its own outputs is blinded,
and an output is blinded if it has a blinding key. Recipients and addresses the caller gives have a
key or not; addresses of the wallet have one, but change drops it unless the wallet has a
confidential coin that is not spent. That is not the same as spending one: a replacement spends
coins that another transaction has spent already, and the wallet may have no change at all.
-/

namespace Swk

open List

def Pset.Blinded (p : Pset) : Prop := ∃ o ∈ p.outputs, o.blindingKey.isSome = true

/-- Recipients among which one has a blinding key. -/
def AnyKeyed (l : List Recipient) : Prop := ∃ r ∈ l, r.blindingPubkey.isSome = true

@[simp] theorem anyKeyed_nil : AnyKeyed [] ↔ False := by simp [AnyKeyed]

@[simp] theorem anyKeyed_cons (r : Recipient) (l : List Recipient) :
    AnyKeyed (r :: l) ↔ r.blindingPubkey.isSome = true ∨ AnyKeyed l := by
  simp [AnyKeyed]

@[simp] theorem anyKeyed_append (l l' : List Recipient) :
    AnyKeyed (l ++ l') ↔ AnyKeyed l ∨ AnyKeyed l' := by
  simp [AnyKeyed, or_and_right, exists_or]

/-! ## Addresses of the wallet -/

/-- Whether the addresses of the wallet have a blinding key. A wallet without descriptor uses its
first script. -/
def addressKeyed (d : WolletDescriptor) : Bool :=
  d.isAmp0 ||
    match d.inner with
    | .desc _ => true
    | .spks l => (l[0]?).any fun spk => spk.blindingKey.isSome

/-- Whether the wallet picks an address with a blinding key, for change or for receiving. -/
def ownKeyed (x : Builder) (w : Wollet) (isChange : Bool) : Bool :=
  addressKeyed x.env.descriptor && (x.env.descriptor.isAmp0 || !isChange || w.hasConfidentialUtxo)

section Own

variable {x : Builder} {w : Wollet}

theorem descriptor_innerAddress_keyed {d : WolletDescriptor} {secp : Secp} {index : UInt32}
    {chain : Chain} {address : Address} (hamp0 : d.isAmp0 = false)
    (hindex : d.spkCount.isSome = true → index = 0)
    (h : d.innerAddress secp index chain = .ok address) :
    address.blindingPubkey.isSome = addressKeyed d := by
  unfold WolletDescriptor.innerAddress at h
  rw [hamp0, if_neg Bool.false_ne_true] at h
  unfold addressKeyed
  rw [hamp0, Bool.false_or]
  cases hinner : d.inner with
  | desc c =>
    simp only [hinner] at h
    obtain ⟨single, -, h⟩ := except_bind_ok_iff.1 h
    obtain ⟨r, -, h⟩ := except_bind_ok_iff.1 h
    cases h
    rfl
  | spks l =>
    have hzero : index = 0 := hindex (by simp [WolletDescriptor.spkCount, hinner])
    subst hzero
    simp only [hinner] at h
    cases hspk : l[0]? with
    | none => simp [hspk] at h
    | some spk =>
      simp only [UInt32.toNat_zero, hspk, Address.fromScript] at h
      by_cases hshape : (spk.scriptPubkey.isP2pkh || spk.scriptPubkey.isP2sh ||
          spk.scriptPubkey.isV0P2wpkh || spk.scriptPubkey.isV0P2wsh ||
          spk.scriptPubkey.isV1plusP2witprog) = true
      · simp only [hshape, if_true] at h
        cases h
        simp [hspk]
      · simp [hshape] at h

theorem innerAddress_keyed {chain : Chain} {n : UInt32} {r : Address × UInt32}
    (hamp0 : x.env.descriptor.isAmp0 = false)
    (h : w.innerAddress x.env chain (Wollet.addresseeIndex x.env n) = .ok r) :
    r.1.blindingPubkey.isSome = addressKeyed x.env.descriptor := by
  unfold Wollet.innerAddress at h
  simp only at h
  split at h
  · cases h
  · split at h
    · cases h
    · obtain ⟨address, haddress, h⟩ := except_bind_ok_iff.1 h
      cases h
      refine descriptor_innerAddress_keyed hamp0 (fun hspks => ?_) haddress
      have hwildcard : x.env.descriptor.hasWildcard = false := by
        unfold WolletDescriptor.spkCount at hspks
        unfold WolletDescriptor.hasWildcard
        cases hinner : x.env.descriptor.inner with
        | desc c => simp [hinner] at hspks
        | spks l => rfl
      simp [Wollet.addresseeIndex, hwildcard, hspks]

/-- **Whether an address of the wallet has a key is known beforehand.** AMP0 addresses are
confidential. -/
theorem IsOwn.keyed
    (hconfidential : ∀ n a, x.amp0Address n = .ok a → a.blindingPubkey.isSome = true)
    {isChange : Bool} {satoshi : UInt64} {asset : AssetId} {r : Recipient}
    (h : IsOwn x w isChange satoshi asset r) : r.blindingPubkey.isSome = ownKeyed x w isChange := by
  obtain ⟨n, n', h⟩ := h
  unfold Wollet.addresseeInner at h
  unfold ownKeyed
  by_cases hamp0 : x.env.descriptor.isAmp0 = true
  · rw [if_pos hamp0] at h
    obtain ⟨address, haddress, h⟩ := except_bind_ok_iff.1 h
    cases h
    have hkey := hconfidential _ _ haddress
    simp [Recipient.fromAddress, hkey, addressKeyed, hamp0]
  · rw [if_neg hamp0] at h
    have hamp0 := Bool.eq_false_iff.2 hamp0
    obtain ⟨address, haddress, h⟩ := except_bind_ok_iff.1 h
    have hkey := innerAddress_keyed hamp0 haddress
    by_cases hexplicit : (isChange && !w.hasConfidentialUtxo) = true
    · rw [if_pos hexplicit] at h
      cases h
      rw [Bool.and_eq_true, Bool.not_eq_true'] at hexplicit
      simp [Recipient.fromAddress, hamp0, hexplicit]
    · rw [if_neg hexplicit] at h
      cases h
      have hkept : (!isChange || w.hasConfidentialUtxo) = true := by
        cases isChange <;> simp_all
      rw [Recipient.fromAddress, hkey, hamp0, Bool.false_or, hkept, Bool.and_true]

end Own

/-! ## Outputs with a key -/

/-- Whether a recipient has a key who may be given by an address. -/
def paysKeyed (x : Builder) (w : Wollet) (isChange : Bool) (address : Option Address) : Bool :=
  match address with
  | some address => address.blindingPubkey.isSome
  | none => ownKeyed x w isChange

/-- An issuance that pays to an address with a key. -/
def IssuesKeyed (x : Builder) (w : Wollet) : IssuanceRequest → Prop
  | .none => False
  | .issuance satoshiAsset addressAsset satoshiToken addressToken _ =>
    (0 < satoshiAsset ∧ paysKeyed x w false addressAsset = true) ∨
      (0 < satoshiToken ∧ paysKeyed x w false addressToken = true)
  | .reissuance _ _ addressAsset _ => paysKeyed x w false addressAsset = true

/-- A reissuance for which no coin that is spent anyway carries the token. -/
def AddsToken (x : Builder) (w : Wollet) (coins : List Coin) (request : IssuanceRequest) : Prop :=
  ∃ asset satoshi address tx details, request = .reissuance asset satoshi address tx ∧
    TxBuilder.issuanceOf x w asset tx = .ok details ∧
    ∀ c ∈ coins, c.secrets.asset ≠ details.token

theorem ChangeSettled.keyed {change q q' : UInt64} {dust : Nat} {c c' : Option Recipient}
    (h : ChangeSettled change q dust c c' q') :
    AnyKeyed c'.toList ↔ AnyKeyed c.toList ∧ dust < change.toNat := by
  cases h with
  | missing => simp
  | kept r hkept => simp [Recipient.withAmount, hkept]
  | folded r hdust => simp [hdust]

theorem addsToken_iff {x : Builder} {w : Wollet} {coins : List Coin} {asset : AssetId}
    {satoshi : UInt64} {address : Option Address} {tx : Option Transaction}
    {details : IssuanceDetails} (hdetails : TxBuilder.issuanceOf x w asset tx = .ok details) :
    AddsToken x w coins (.reissuance asset satoshi address tx) ↔
      ∀ c ∈ coins, c.secrets.asset ≠ details.token := by
  constructor
  · intro ⟨asset', satoshi', address', tx', details', hrequest, hdetails', hnone⟩
    cases hrequest
    rw [hdetails] at hdetails'
    cases hdetails'
    exact hnone
  · intro hnone
    exact ⟨_, _, _, _, _, rfl, hdetails, hnone⟩

/-- The policy change, as the caller configures it: whether it is there, and has a key. -/
def PaysPolicyKeyed (x : Builder) (w : Wollet) (t : TxBuilder) (sums : UInt64 × UInt64) : Prop :=
  paysKeyed x w true t.drainTo = true ∧ (t.feeInAsset = none ∨ sums.1 ≠ sums.2)

/-- The change of another asset that pays the fee: it is there if more than dust is left of it, at
the fee that the transaction is weighed at. -/
def LeavesFeeChange (t : TxBuilder) (fee : UInt64 × UInt64) (weighed : UInt64) : Prop :=
  ∃ asset rate, t.feeInAsset = some (asset, rate) ∧ fee.2 < fee.1 ∧
    TxBuilder.convertValue 294 rate.toNat < (fee.1 - fee.2 - feeAmountX weighed rate).toNat

section Phases

variable {x : Builder} {w : Wollet} {t : TxBuilder} {utxos : HashMap OutPoint WalletTxOut}
variable {selected : List WalletTxOut}
variable (hconfidential : ∀ n a, x.amp0Address n = .ok a → a.blindingPubkey.isSome = true)

include hconfidential

variable {satoshi : UInt64} {asset : AssetId}

variable {address : Option Address} {coins extra : List Coin} {recipients : List Recipient}
  {sums : UInt64 × UInt64}

theorem PaysTo.keyed {isChange : Bool} {r : Recipient}
    (h : PaysTo x w isChange satoshi asset address r) :
    r.blindingPubkey.isSome = paysKeyed x w isChange address := by
  cases address with
  | some address =>
    obtain rfl : r = _ := h
    rfl
  | none => exact IsOwn.keyed hconfidential h

theorem IssuedIf.keyed {l : List Recipient} (h : IssuedIf x w satoshi asset address l) :
    AnyKeyed l ↔ 0 < satoshi ∧ paysKeyed x w false address = true := by
  rcases h with ⟨hpos, r, hr, rfl⟩ | ⟨rfl, rfl⟩
  · simp [hr.keyed hconfidential, hpos]
  · simp

theorem TokenInput.keyed {token : AssetId} {c : Coin} {change : List Recipient}
    (h : TokenInput x w utxos coins token c extra change) :
    AnyKeyed change ↔ ownKeyed x w true = true ∧ ∀ c ∈ coins, c.secrets.asset ≠ token := by
  cases h with
  | found _ hc hasset =>
    rw [anyKeyed_nil, false_iff]
    intro ⟨_, hnone⟩
    exact hnone c hc hasset
  | added u hu hnone r hr =>
    simp only [anyKeyed_cons, anyKeyed_nil, or_false, hr.keyed hconfidential]
    exact (and_iff_left hnone).symm

theorem Issues.keyed {b b' : Build} {request : IssuanceRequest}
    (h : Issues x w utxos coins b request extra recipients b') :
    AnyKeyed recipients ↔ IssuesKeyed x w request ∨
      (ownKeyed x w true = true ∧ AddsToken x w coins request) := by
  cases h with
  | none => simp [IssuesKeyed, AddsToken]
  | issuance _ _ _ hasset htoken _ =>
    simp [IssuesKeyed, AddsToken, hasset.keyed hconfidential, htoken.keyed hconfidential]
  | reissuance hdetails _ hinput _ _ _ _ _ _ hissued _ =>
    rw [anyKeyed_append, anyKeyed_cons, hissued.keyed hconfidential, anyKeyed_nil, or_false,
      hinput.keyed hconfidential, addsToken_iff hdetails, IssuesKeyed]
    exact or_comm

theorem TxBuilder.IsChange.keyed {change : AssetId → Option Recipient} {a : AssetId}
    (h : t.IsChange x w utxos selected change a) :
    AnyKeyed (change a).toList ↔ ownKeyed x w true = true ∧ t.isFeeAsset a = false ∧
      (t.sumsOf x utxos selected a).2 < (t.sumsOf x utxos selected a).1 := by
  unfold TxBuilder.IsChange at h
  cases hfee : t.isFeeAsset a with
  | true =>
    rw [hfee, if_pos rfl] at h
    simp [h]
  | false =>
    rw [hfee, if_neg Bool.false_ne_true] at h
    cases hchange : change a with
    | none =>
      rw [hchange] at h
      have heq : (t.sumsOf x utxos selected a).1 = (t.sumsOf x utxos selected a).2 := h
      simp [heq]
    | some r =>
      rw [hchange] at h
      simp [h.2.keyed hconfidential, h.1]

theorem IsChangeOf.keyed {change : Option Recipient} (h : IsChangeOf x w sums asset change) :
    AnyKeyed change.toList ↔ ownKeyed x w true = true ∧ sums.2 < sums.1 := by
  cases change with
  | none =>
    have heq : sums.1 = sums.2 := h
    simp [heq]
  | some r =>
    obtain ⟨hlt, hr⟩ := h
    simp [hr.keyed hconfidential, hlt]

/-- **Which change has a key**, once the fee is settled. -/
theorem Settles.keyed {fee : UInt64 × UInt64} {weighed q : UInt64}
    (h : Settles x w t sums fee weighed recipients q) :
    AnyKeyed recipients ↔ PaysPolicyKeyed x w t sums ∨
      (ownKeyed x w true = true ∧ LeavesFeeChange t fee weighed) := by
  unfold PaysPolicyKeyed LeavesFeeChange
  cases h with
  | policy hfee hroom hr => simp [hr.keyed hconfidential, hfee]
  | asset hfee howned hmissing hcovered hchange hpos hroom hsettled =>
    rename_i asset rate p c c'
    have hpolicy : AnyKeyed p.toList ↔ paysKeyed x w true t.drainTo = true ∧ sums.1 ≠ sums.2 := by
      cases p with
      | none => simp [hmissing.1 rfl]
      | some r =>
        have hleft : sums.1 ≠ sums.2 := fun h => Option.some_ne_none r (hmissing.2 h)
        simp [(howned r rfl).keyed hconfidential, hleft]
    rw [anyKeyed_append, hpolicy, hsettled.keyed, hchange.keyed hconfidential, and_assoc]
    simp [hfee]

end Phases

/-! ## The finished transaction -/

namespace TxBuilder

/-- Some asset that does not pay the fee leaves change. -/
def MakesChange (x : Builder) (t : TxBuilder) (utxos : HashMap OutPoint WalletTxOut)
    (selected : List WalletTxOut) : Prop :=
  ∃ a ∈ t.assets x selected, t.isFeeAsset a = false ∧
    (t.sumsOf x utxos selected a).2 < (t.sumsOf x utxos selected a).1

/-- Some output has a blinding key: one that the caller asks for, or change of a wallet that blinds
its change. -/
def KeysOutput (x : Builder) (w : Wollet) (t : TxBuilder) (utxos : HashMap OutPoint WalletTxOut)
    (selected : List WalletTxOut) (weighed : UInt64) : Prop :=
  AnyKeyed t.recipients ∨ IssuesKeyed x w t.issuanceRequest ∨
    (ownKeyed x w true = true ∧ (t.MakesChange x utxos selected ∨
      AddsToken x w (t.coins x utxos selected) t.issuanceRequest ∨
      LeavesFeeChange t (t.feeSums x utxos selected) weighed)) ∨
    PaysPolicyKeyed x w t (t.policySums x utxos selected)

theorem anyKeyed_map_output (l : List Recipient) :
    (∃ o ∈ l.map (·.output), o.blindingKey.isSome = true) ↔ AnyKeyed l := by
  simp [AnyKeyed, Recipient.output]

section Finished

variable {x : Builder} {w : Wollet} {t : TxBuilder} {p : Pset}

variable (f : Finished x w t p)

theorem Finished.paid_keyed : (∃ o ∈ t.paid x f.selected f.change, o.blindingKey.isSome = true) ↔
      AnyKeyed t.recipients ∨ ∃ a ∈ t.assets x f.selected, AnyKeyed (f.change a).toList := by
  have hperm := recipientsOf_perm x t f.selected
  have hrecipients : AnyKeyed t.recipients ↔
      (∃ a ∈ t.assets x f.selected, AnyKeyed (t.recipientsOf a)) ∨
        AnyKeyed (t.recipientsOf t.policyAsset) := by
    unfold AnyKeyed
    simp only [← hperm.mem_iff, mem_flatMap, allAssets, mem_append, mem_singleton]
    constructor
    · rintro ⟨r, ⟨a, ha | rfl, hr⟩, hkey⟩
      · exact .inl ⟨a, ha, r, hr, hkey⟩
      · exact .inr ⟨r, hr, hkey⟩
    · rintro (⟨a, ha, r, hr, hkey⟩ | ⟨r, hr, hkey⟩)
      · exact ⟨r, ⟨a, .inl ha, hr⟩, hkey⟩
      · exact ⟨r, ⟨_, .inr rfl, hr⟩, hkey⟩
  have hflat : ∀ g : AssetId → List Recipient, AnyKeyed ((t.assets x f.selected).flatMap g) ↔
      ∃ a ∈ t.assets x f.selected, AnyKeyed (g a) := by
    intro g
    unfold AnyKeyed
    simp only [mem_flatMap]
    constructor
    · rintro ⟨r, ⟨a, ha, hr⟩, hkey⟩
      exact ⟨a, ha, r, hr, hkey⟩
    · rintro ⟨a, ha, r, hr, hkey⟩
      exact ⟨r, ⟨a, ha, hr⟩, hkey⟩
  rw [paid_eq_map, anyKeyed_map_output, anyKeyed_append, hflat, hrecipients]
  simp only [anyKeyed_append, and_or_left, exists_or]
  exact or_right_comm

theorem Finished.blinded_iff : p.Blinded ↔
    (∃ o ∈ t.paid x f.selected f.change, o.blindingKey.isSome = true) ∨
      AnyKeyed f.issuedTo ∨ AnyKeyed f.settledTo := by
  rw [← anyKeyed_map_output f.issuedTo, ← anyKeyed_map_output f.settledTo, Pset.Blinded, f.outputs]
  simp only [mem_append, mem_singleton, or_and_right, exists_or, exists_eq_left,
    feeOutput, or_assoc]
  simp [PsetOutput.newExplicit]

theorem finishLiquidexMake_blinded {b' : Build}
    (h : t.finishLiquidexMake x w (start w) = .ok p b') : p.Blinded := by
  obtain ⟨m⟩ := finishLiquidexMake_ok h
  refine ⟨{ m.recipient.output with abf := some m.abf }, ?_, ?_⟩
  · rw [m.outputs]
    exact mem_singleton_self _
  · exact Option.isSome_of_eq_some m.isKeyed

theorem ownKeyed_receive (h : ownKeyed x w true = true) : ownKeyed x w false = true := by
  unfold ownKeyed at h ⊢
  rw [Bool.and_eq_true] at h
  simp [h.1]

theorem toPset_unkeyed {proposal : LiquidexProposal} {pset : Pset}
    (h : proposal.toPset = .ok pset) : ∀ o ∈ pset.outputs, o.blindingKey = none := by
  obtain ⟨_, _, _, _, _, _, _, _, -, -, -, -, -, -, rfl⟩ := LiquidexProposal.toPset_ok h
  intro o ho
  rw [mem_singleton.1 ho]
  rfl

variable (hconfidential : ∀ n a, x.amp0Address n = .ok a → a.blindingPubkey.isSome = true)

include hconfidential

theorem Finished.blinded :
    p.Blinded ↔
      t.KeysOutput x w f.utxos f.selected (x.calculateFee f.weight t.feeRate) := by
  have hchange : (∃ a ∈ t.assets x f.selected, AnyKeyed (f.change a).toList) ↔
      ownKeyed x w true = true ∧ t.MakesChange x f.utxos f.selected := by
    constructor
    · intro ⟨a, ha, hkeyed⟩
      obtain ⟨hown, hleft⟩ := ((f.isChange a ha).keyed hconfidential).1 hkeyed
      exact ⟨hown, a, ha, hleft⟩
    · intro ⟨hown, a, ha, hleft⟩
      exact ⟨a, ha, ((f.isChange a ha).keyed hconfidential).2 ⟨hown, hleft⟩⟩
  rw [f.blinded_iff, f.paid_keyed, hchange, f.issues.keyed hconfidential,
    f.settles.keyed hconfidential, KeysOutput, and_or_left, and_or_left]
  -- the same alternatives, phase by phase and as the condition lists them
  tauto

theorem finishLiquidexTake_blinded {b b' : Build} (h : t.finishLiquidexTake x w b = .ok p b')
    : p.Blinded ↔ ownKeyed x w false = true := by
  obtain ⟨f⟩ := finishLiquidexTake_ok h
  obtain ⟨hchange, hkeys⟩ := f.keys
  generalize f.drafted.change.toList ++ [f.drafted.settled] = change at hchange hkeys
  have hr := f.drafted.isReceive
  have hnone : f.output.blindingKey = none :=
    toPset_unkeyed f.toPset f.output (by rw [f.outputs]; exact mem_singleton_self _)
  have hblinded : p.Blinded ↔ ∃ k ∈ p.outputs.map (·.blindingKey), k.isSome = true := by
    simp [Pset.Blinded]
  rw [hblinded, hkeys, hnone, ← hr.keyed hconfidential]
  constructor
  · intro ⟨k, hk, hsome⟩
    simp only [map_cons, cons_append, mem_cons, mem_append, mem_map, not_mem_nil, or_false] at hk
    rcases hk with rfl | rfl | ⟨c, hc, rfl⟩ | rfl
    · cases hsome
    · exact hsome
    · obtain ⟨satoshi', asset', hown⟩ := hchange c hc
      rw [hown.keyed hconfidential] at hsome
      rw [hr.keyed hconfidential]
      exact ownKeyed_receive hsome
    · cases hsome
  · intro hsome
    exact ⟨f.drafted.receive.blindingPubkey, by simp, hsome⟩

end Finished

/-! ## The condition -/

variable (w : Wollet) (t : TxBuilder)

/-- What an outpoint opens to: a coin of the wallet, one that the caller gives, or the one that the
maker of a proposal gives. -/
def Opens (o : OutPoint) (secrets : TxOutSecrets) : Prop :=
  (∃ all u, w.utxosMap = .ok all ∧ all.lookup o = some u ∧ u.unblinded = secrets) ∨
    (∃ u ∈ t.externalUtxos, u.outpoint = o ∧ u.unblinded = secrets) ∨
    ∃ proposal ∈ t.liquidexProposals, ∃ pset i offered, proposal.toPset = .ok pset ∧
      i ∈ pset.inputs ∧ i.previousOutput = o ∧ makerSide i.asset i.amount i.abf = .ok offered ∧
      makerSecrets offered = secrets

/-- Some input spends an output with a blinding factor other than zero. -/
def SpendsConfidential (p : Pset) : Prop :=
  ∃ i ∈ p.inputs, ∃ secrets, t.Opens w i.previousOutput secrets ∧ isExplicit secrets = false

/-- The commitments can balance: a transaction with a confidential input has a blinded output. -/
def CanBalance (p : Pset) : Prop :=
  t.SpendsConfidential w p → p.Blinded

/-- The builder has an output to blind. A maker always does, a taker if their addresses have a
key. -/
def BlindsOutput (x : Builder) (w : Wollet) (t : TxBuilder) : Prop :=
  if t.isLiquidexMake then True
  else if !t.liquidexProposals.isEmpty then ownKeyed x w false = true
  else ∀ all selected weighed, w.utxosMap = .ok all →
    t.selectedCoins (t.candidates all) = .ok selected → t.weighedFee x w = some weighed →
    t.KeysOutput x w (t.candidates all) selected weighed

theorem blinded_iff_blindsOutput {x : Builder} {w : Wollet} {t : TxBuilder} {p : Pset}
    (hconfidential : ∀ n a, x.amp0Address n = .ok a → a.blindingPubkey.isSome = true)
    (h : t.finishInner x w = .ok p) : p.Blinded ↔ t.BlindsOutput x w := by
  obtain ⟨b', hrun⟩ := finishInner_ok h
  unfold BlindsOutput
  by_cases hmake : t.isLiquidexMake = true
  · rw [if_pos hmake] at hrun ⊢
    exact iff_of_true (finishLiquidexMake_blinded hrun) trivial
  rw [if_neg hmake] at hrun ⊢
  by_cases htake : (!t.liquidexProposals.isEmpty) = true
  · rw [if_pos htake] at hrun ⊢
    exact finishLiquidexTake_blinded hconfidential hrun
  rw [if_neg htake] at hrun ⊢
  obtain ⟨f⟩ := finishPlain_ok hrun
  rw [f.blinded hconfidential]
  constructor
  · intro hkeys all selected weighed hall hselected hweighed
    obtain rfl : f.all = all := Except.ok.inj (f.utxosMap.symm.trans hall)
    obtain rfl : f.selected = selected := Except.ok.inj (f.selectedCoins.symm.trans hselected)
    obtain rfl := Option.some.inj (f.weighedFee_eq.symm.trans hweighed)
    exact hkeys
  · intro hkeys
    exact hkeys _ _ _ f.utxosMap f.selectedCoins f.weighedFee_eq

/-- **Confidential inputs get a blinded output** if and only if the builder has an output to
blind. -/
theorem canBalance_iff (x : Builder) (w : Wollet) (t : TxBuilder) (p : Pset)
    (hconfidential : ∀ n a, x.amp0Address n = .ok a → a.blindingPubkey.isSome = true)
    (h : t.finishInner x w = .ok p) :
    t.CanBalance w p ↔ (t.SpendsConfidential w p → t.BlindsOutput x w) :=
  imp_congr_right fun _ => blinded_iff_blindsOutput hconfidential h

end TxBuilder

/-! ## Replacing the spend of the last confidential coin -/

namespace LastConfidential

def secrets : TxOutSecrets := ⟨1, .one, 100000, .one⟩

def funding : Transaction :=
  ⟨[], [⟨.confidential 1, .confidential 1, .confidential ⟨false, 1⟩, Concrete.script 0, none⟩]⟩

def payment : Transaction :=
  ⟨[⟨⟨12, 0⟩, .null⟩], [⟨.explicit 1, .explicit 90000, .null, Concrete.script 1, none⟩]⟩

def env : Env :=
  { Concrete.env (fun tx => BitVec.ofNat 256 (10 + tx.input.length + 2 * tx.output.length)) [] with
    secp := ⟨fun key => ⟨false, key⟩, fun _ _ => some secrets⟩
    descriptor := ⟨.spks [⟨some 1, Concrete.script 0⟩], false⟩ }

def wallet : Wollet := Concrete.funded env [funding, payment]

def x : Builder := Concrete.builder env

def replacing : TxBuilder := Concrete.value (wallet.replaceTxOf x 13) (.new 1)

def tx : TxBuilder :=
  { replacing with recipients := replacing.recipients ++ [⟨20000, Concrete.script 2, none, 1⟩] }

theorem replaceTxOf_replacing : wallet.replaceTxOf x 13 = .ok replacing :=
  Concrete.eq_ok_value (by decide)

theorem finishes : Concrete.finishes x wallet tx = true := by decide

theorem spendsConfidential : tx.SpendsConfidential wallet (Concrete.finished x wallet tx) := by
  have hinput : ∃ i ∈ (Concrete.finished x wallet tx).inputs, i.previousOutput = ⟨12, 0⟩ := by
    decide
  have hgiven : ∃ u ∈ tx.externalUtxos, u.outpoint = ⟨12, 0⟩ ∧ u.unblinded = secrets := by
    decide
  obtain ⟨i, hi, hprevious⟩ := hinput
  refine ⟨i, hi, secrets, ?_, by decide⟩
  rw [hprevious]
  exact .inr (.inl hgiven)

/-- The wallet has keys for its addresses but no confidential coin that is unspent, so the change
of the replacement is explicit: it spends a confidential coin and blinds nothing. -/
theorem replacement_unblinded : wallet.replaceTxOf x 13 = .ok replacing ∧
    replacing.Customizes tx ∧ ∃ p, tx.finishInner x wallet = .ok p ∧ ¬ tx.CanBalance wallet p := by
  refine ⟨replaceTxOf_replacing, ⟨_, replacing.feeRate, replacing.feeAsset, rfl⟩, _,
    Concrete.finishInner_finished finishes, ?_⟩
  intro hbalance
  have hnone : ∀ o ∈ (Concrete.finished x wallet tx).outputs, o.blindingKey = none := by
    decide
  obtain ⟨o, ho, hkey⟩ := hbalance spendsConfidential
  rw [hnone o ho] at hkey
  cases hkey

theorem canBalance_iff_replacement :
    tx.CanBalance wallet (Concrete.finished x wallet tx) ↔
      (tx.SpendsConfidential wallet (Concrete.finished x wallet tx) →
        tx.BlindsOutput x wallet) := by
  refine TxBuilder.canBalance_iff x wallet tx _ ?_ (Concrete.finishInner_finished finishes)
  intro n a h
  cases h

end LastConfidential

end Swk
