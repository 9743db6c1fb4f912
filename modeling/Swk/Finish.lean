import Swk.Assembly

/-!
# From the first input to the finished transaction

The rest of the builder's steps, in the manner of `Assembly`: the policy asset, the issuance, which
rewrites one input, and the fee, which appends change and fee and then sets their amounts. A
`Finished` has all phases of a run of the builder, with what each of them left behind.
-/

namespace Swk

open List TxBuilder

section Phases

variable {x : Builder} {w : Wollet} {t : TxBuilder} {b b' : Build}
variable {utxos : HashMap OutPoint WalletTxOut} {selected : List WalletTxOut}

namespace TxBuilder

/-! ## The policy asset -/

/-- The coins of the policy asset that are spent. -/
def policySpent (x : Builder) (t : TxBuilder) (utxos : HashMap OutPoint WalletTxOut)
    (selected : List WalletTxOut) : List Coin :=
  t.externalsOf t.policyAsset ++ (t.policyCoins x utxos selected).map (·.coin)

/-- What is spent of the policy asset and what its recipients get. -/
def policySums (x : Builder) (t : TxBuilder) (utxos : HashMap OutPoint WalletTxOut)
    (selected : List WalletTxOut) : UInt64 × UInt64 :=
  (UInt64.ofNat (total Coin.value (t.policySpent x utxos selected)),
    UInt64.ofNat (t.requested t.policyAsset))

theorem addPolicyAsset_ok {sums : UInt64 × UInt64}
    (h : t.addPolicyAsset x w utxos selected b = .ok sums b') :
    Grows b (t.policySpent x utxos selected) ((t.recipientsOf t.policyAsset).map (·.output)) b' ∧
      sums = t.policySums x utxos selected := by
  obtain ⟨satoshiOut, b₁, hout, h⟩ := bind_ok_iff.1 h
  obtain ⟨hgrows₁, rfl⟩ := addRecipients_ok hout
  obtain ⟨satoshiIn, b₂, hext, h⟩ := bind_ok_iff.1 h
  obtain ⟨hgrows₂, rfl⟩ := addExternals_ok hext
  obtain ⟨satoshiIn, b₃, hcoins, h⟩ := bind_ok_iff.1 h
  obtain ⟨rfl, rfl⟩ := pure_ok_iff.1 h
  obtain ⟨hgrows₃, rfl⟩ := addCoins_ok hcoins
  refine ⟨?_, ?_⟩
  · have hgrows := (hgrows₁.trans hgrows₂).trans hgrows₃
    rw [append_nil, append_nil, nil_append] at hgrows
    exact hgrows
  · rw [policySums, policySpent, total_append, UInt64.ofNat_add]
    rfl

end TxBuilder

/-! ## Issuance -/

/-- One input was rewritten, which still carries the same coin. -/
structure Rewrites (b : Build) (idx : Nat) (i i' : PsetInput) (b' : Build) : Prop where
  inputs : ∃ l₁ l₂, b.pset.inputs = l₁ ++ i :: l₂ ∧ l₁.length = idx ∧
    b'.pset.inputs = l₁ ++ i' :: l₂
  outputs : b'.pset.outputs = b.pset.outputs
  spent : i'.spent = i.spent

variable {idx : Nat} {i' : PsetInput} {outs : List PsetOutput} {satoshi : UInt64} {asset : AssetId}
  {address : Option Address} {r : Recipient} {u : Unit} {l : List PsetOutput}
  {sums fee : UInt64 × UInt64} {rate : UInt64} {base : List PsetOutput} {c : Option Recipient}

theorem Rewrites.map_spent {i : PsetInput} (h : Rewrites b idx i i' b') :
    b'.pset.inputs.map (·.spent) = b.pset.inputs.map (·.spent) := by
  obtain ⟨l₁, l₂, hb, -, hb'⟩ := h.inputs
  rw [hb, hb', map_append, map_append, map_cons, map_cons, h.spent]

theorem modifyInput_ok {f : PsetInput → PsetInput} (h : modifyInput idx f b = .ok i' b')
    (hf : ∀ i, (f i).spent = i.spent) : ∃ i, i' = f i ∧ Rewrites b idx i i' b' := by
  replace h := get_bind_ok_iff.1 h
  cases hi : b.pset.inputs[idx]? with
  | none =>
    rw [hi] at h
    exact absurd h fun h => throw_ok_iff.1 h
  | some i =>
    rw [hi] at h
    replace h := set_bind_ok_iff.1 h
    obtain ⟨rfl, rfl⟩ := pure_ok_iff.1 h
    obtain ⟨hlt, rfl⟩ := List.getElem?_eq_some_iff.1 hi
    refine ⟨_, rfl, ⟨⟨b.pset.inputs.take idx, b.pset.inputs.drop (idx + 1), ?_, ?_, ?_⟩, rfl, hf _⟩⟩
    · rw [getElem_cons_drop, take_append_drop]
    · exact length_take_of_le hlt.le
    · exact set_eq_take_append_cons_drop.trans (if_pos hlt)

variable {satoshiAsset q change policyFee : UInt64} {s : TxOutSecrets} {isChange : Bool} {α : Type}
  {n dust : Nat} {p : Option Recipient}

/-- `set_issuance` makes an input issue a new asset and its token. -/
theorem setIssuance_ok {satoshiToken : UInt64} {contract : Option Contract}
    {ids : AssetId × AssetId}
    (h : setIssuance x idx satoshiAsset satoshiToken contract b = .ok ids b') :
    ∃ i i', Rewrites b idx i i' b' ∧ ids = i'.issuanceIds x.hash ∧ i'.issuanceValueAmount =
        (if satoshiAsset > 0 then some satoshiAsset else i.issuanceValueAmount) ∧
      i'.issuanceInflationKeys =
        (if satoshiToken > 0 then some satoshiToken else i.issuanceInflationKeys) := by
  replace h := get_bind_ok_iff.1 h
  obtain ⟨-, h⟩ := ensureElse_bind_ok_iff.1 h
  obtain ⟨contractHash, -, h⟩ := liftExcept_bind_ok_iff.1 h
  obtain ⟨i', b₂, hmodify, h⟩ := bind_ok_iff.1 h
  obtain ⟨rfl, rfl⟩ := pure_ok_iff.1 h
  obtain ⟨i, rfl, hrewrites⟩ := modifyInput_ok hmodify fun _ => rfl
  exact ⟨i, _, hrewrites, rfl, rfl, rfl⟩

/-- `set_reissuance` makes an input reissue an asset. -/
theorem setReissuance_ok {tokenAssetBf : Tweak} {entropy : BitVec 256}
    (h : setReissuance idx satoshiAsset tokenAssetBf entropy b = .ok i' b') :
    ∃ i, Rewrites b idx i i' b' ∧ i'.issuanceValueAmount = some satoshiAsset ∧
      i'.issuanceInflationKeys = i.issuanceInflationKeys ∧
      i'.issuanceIds x.hash = x.hash.ids i.previousOutput tokenAssetBf entropy false := by
  obtain ⟨i, rfl, hrewrites⟩ := modifyInput_ok h fun _ => rfl
  exact ⟨i, hrewrites, rfl, rfl, rfl⟩

theorem mem_openings {coins : List Coin} :
    (idx, s) ∈ openings 0 coins ↔ ∃ c, coins[idx]? = some c ∧ c.secrets = s := by
  simp only [openings, mem_map, Prod.mk.injEq]
  constructor
  · rintro ⟨e, he, hidx, hs⟩
    exact ⟨e.1, hidx ▸ mem_zipIdx_iff_getElem?.1 he, hs⟩
  · rintro ⟨c, hc, hs⟩
    exact ⟨(c, idx), mem_zipIdx_iff_getElem?.2 hc, rfl, hs⟩

theorem lookup_openings {coins : List Coin} :
    (HashMap.ofPairs (openings 0 coins)).lookup idx = some s ↔
      ∃ c, coins[idx]? = some c ∧ c.secrets = s := by
  rw [HashMap.lookup_ofPairs]
  refine ⟨fun h => mem_openings.1 (HashMap.mem_of_lastValue h), fun h => ?_⟩
  refine HashMap.lastValue_eq_some (mem_openings.2 h) fun s' hs' => ?_
  obtain ⟨c, hc, rfl⟩ := h
  obtain ⟨c', hc', rfl⟩ := mem_openings.1 hs'
  rw [hc] at hc'
  cases hc'
  rfl

/-- The coin that carries the token: the first of the inputs that does, or else the first coin of
the wallet. -/
def tokenCoin (x : Builder) (utxos : HashMap OutPoint WalletTxOut) (coins : List Coin)
    (token : AssetId) : Option Coin :=
  match (x.order.secrets (HashMap.ofPairs (openings 0 coins)).toPairs).find?
      fun e => e.2.asset = token with
  | some e => coins[e.1]?
  | none => (coinsOf x utxos token).head?.map (·.coin)

/-- How the token comes in: with an input that is there, or with a coin of the wallet that is
added and returned as change. -/
inductive TokenInput (x : Builder) (w : Wollet) (utxos : HashMap OutPoint WalletTxOut)
    (coins : List Coin) (token : AssetId) : Coin → List Coin → List Recipient → Prop
  | found (c : Coin) (hc : c ∈ coins) (hasset : c.secrets.asset = token) :
      TokenInput x w utxos coins token c [] []
  | added (u : WalletTxOut) (hu : u ∈ coinsOf x utxos token)
      (hnone : ∀ c ∈ coins, c.secrets.asset ≠ token) (r : Recipient)
      (hr : IsOwn x w true u.unblinded.value token r) :
      TokenInput x w utxos coins token u.coin [u.coin] [r]

theorem tokenInput_ok {coins : List Coin} {token : AssetId} {r : Nat × Tweak}
    (hb : Grows (TxBuilder.start w) coins outs b) (h : t.tokenInput x w utxos token b = .ok r b') :
    ∃ c extra change, tokenCoin x utxos coins token = some c ∧
      TokenInput x w utxos coins token c extra change ∧
      (coins ++ extra)[r.1]? = some c ∧ r.2 = c.secrets.assetBf ∧
      Grows b extra (change.map (·.output)) b' := by
  replace h := get_bind_ok_iff.1 h
  have hsecrets : b.inpTxoutSec = HashMap.ofPairs (openings 0 coins) := hb.secrets
  rw [hsecrets] at h
  unfold tokenCoin
  cases hfind : (x.order.secrets (HashMap.ofPairs (openings 0 coins)).toPairs).find?
      fun e => e.2.asset = token with
  | some e =>
    rw [hfind] at h
    obtain ⟨rfl, rfl⟩ := pure_ok_iff.1 h
    have hmem := (x.order.secrets_perm _).mem_iff.1 (mem_of_find?_eq_some hfind)
    obtain ⟨c, hc, hcs⟩ := lookup_openings.1 (HashMap.mem_toPairs.1 hmem)
    have htoken : e.2.asset = token := by simpa using find?_some hfind
    refine ⟨c, [], [], hc, .found c (mem_of_getElem? hc) ?_, ?_, ?_, .refl _⟩
    · rw [hcs, htoken]
    · rw [append_nil]
      exact hc
    · rw [hcs]
  | none =>
    rw [hfind] at h
    cases hcoins : coinsOf x utxos token with
    | nil =>
      rw [hcoins] at h
      exact absurd h fun h => throw_ok_iff.1 h
    | cons u rest =>
      rw [hcoins] at h
      obtain ⟨idx, b₂, hadd, h⟩ := bind_ok_iff.1 h
      obtain ⟨hidx, hgrows⟩ := addInput_ok hadd
      obtain ⟨_, b₃, hchange, h⟩ := bind_ok_iff.1 h
      obtain ⟨rfl, rfl⟩ := pure_ok_iff.1 h
      obtain ⟨r, hr, hgrows'⟩ := addChange_ok hchange
      refine ⟨u.coin, [u.coin], [r], rfl, .added u ?_ ?_ r hr, ?_, rfl, hgrows.trans hgrows'⟩
      · rw [hcoins]
        exact mem_cons_self
      · intro c hc htoken
        obtain ⟨i, hi⟩ := mem_iff_getElem?.1 hc
        have hmem := HashMap.mem_toPairs.2 (lookup_openings.2 ⟨c, hi, rfl⟩)
        have hnot := find?_eq_none.1 hfind (i, c.secrets) ((x.order.secrets_perm _).mem_iff.2 hmem)
        exact hnot (decide_eq_true htoken)
      · rw [hidx, hb.length_inputs]
        simp [start, Pset.new]

/-- A recipient at the address that is given, or else at one of the wallet's. -/
def PaysTo (x : Builder) (w : Wollet) (isChange : Bool) (satoshi : UInt64) (asset : AssetId)
    (address : Option Address) (r : Recipient) : Prop :=
  match address with
  | some address => r = Recipient.fromAddress satoshi address asset
  | none => IsOwn x w isChange satoshi asset r

theorem PaysTo.fromAddress (h : PaysTo x w isChange satoshi asset address r) :
    ∃ address', r = .fromAddress satoshi address' asset ∧
      ∀ amount, PaysTo x w isChange amount asset address (.fromAddress amount address' asset) := by
  cases address with
  | some address => exact ⟨address, h, fun _ => rfl⟩
  | none => exact IsOwn.fromAddress h

theorem PaysTo.amount (h : PaysTo x w isChange satoshi asset address r) :
    r.satoshi = satoshi ∧ r.asset = asset := by
  obtain ⟨_, rfl, -⟩ := h.fromAddress
  exact ⟨rfl, rfl⟩

theorem addIssued_ok (h : TxBuilder.addIssued x w satoshi asset address b = .ok u b') :
    ∃ r, PaysTo x w false satoshi asset address r ∧ Grows b [] [r.output] b' := by
  obtain ⟨r, b₁, hr, hadd⟩ := bind_ok_iff.1 h
  cases address with
  | some address =>
    obtain ⟨rfl, rfl⟩ := pure_ok_iff.1 hr
    exact ⟨_, rfl, pushOutput_ok hadd⟩
  | none =>
    obtain ⟨hown, hgrows⟩ := addresseeExternal_ok hr
    exact ⟨r, hown, hgrows.trans (pushOutput_ok hadd)⟩

/-- The addressees of an amount that may be zero. -/
def IssuedIf (x : Builder) (w : Wollet) (satoshi : UInt64) (asset : AssetId)
    (address : Option Address) (l : List Recipient) : Prop :=
  (0 < satoshi ∧ ∃ r, PaysTo x w false satoshi asset address r ∧ l = [r]) ∨ (satoshi = 0 ∧ l = [])

theorem runIf_addIssued_ok
    (h : runIf (satoshi > 0) (TxBuilder.addIssued x w satoshi asset address) b = .ok u b') :
    ∃ l, IssuedIf x w satoshi asset address l ∧ Grows b [] (l.map (·.output)) b' := by
  rcases runIf_ok_iff.1 h with ⟨hpos, hadd⟩ | ⟨hzero, rfl⟩
  · obtain ⟨r, hr, hgrows⟩ := addIssued_ok hadd
    exact ⟨[r], .inl ⟨of_decide_eq_true hpos, r, hr, rfl⟩, hgrows⟩
  · refine ⟨[], .inr ⟨?_, rfl⟩, .refl _⟩
    have hnot : ¬ 0 < satoshi := of_decide_eq_false hzero
    exact UInt64.le_antisymm (UInt64.not_lt.1 hnot) UInt64.zero_le

/-- What is issued: a new asset and its token on the first input, an asset once more on the input
with its token, or nothing. -/
inductive Issues (x : Builder) (w : Wollet) (utxos : HashMap OutPoint WalletTxOut)
    (coins : List Coin) (b : Build) :
    IssuanceRequest → List Coin → List Recipient → Build → Prop
  | none : Issues x w utxos coins b .none [] [] b
  | issuance {satoshiAsset satoshiToken : UInt64} {addressAsset addressToken : Option Address}
      {contract : Option Contract} {i i' : PsetInput} {b₁ b' : Build}
      {lAsset lToken : List Recipient}
      (hrewrites : Rewrites b 0 i i' b₁)
      (hvalue : i'.issuanceValueAmount =
        if satoshiAsset > 0 then some satoshiAsset else i.issuanceValueAmount)
      (hkeys : i'.issuanceInflationKeys =
        if satoshiToken > 0 then some satoshiToken else i.issuanceInflationKeys)
      (hasset : IssuedIf x w satoshiAsset (i'.issuanceIds x.hash).1 addressAsset lAsset)
      (htoken : IssuedIf x w satoshiToken (i'.issuanceIds x.hash).2 addressToken lToken)
      (hgrows : Grows b₁ [] ((lAsset ++ lToken).map (·.output)) b') :
      Issues x w utxos coins b
        (.issuance satoshiAsset addressAsset satoshiToken addressToken contract) []
        (lAsset ++ lToken) b'
  | reissuance {asset : AssetId} {satoshiAsset : UInt64} {addressAsset : Option Address}
      {issuanceTx : Option Transaction} {details : IssuanceDetails} {c : Coin} {extra : List Coin}
      {change : List Recipient} {idx : Nat} {i i' : PsetInput} {b₁ b₂ b' : Build} {r : Recipient}
      (hdetails : TxBuilder.issuanceOf x w asset issuanceTx = .ok details)
      (hcoin : tokenCoin x utxos coins details.token = some c)
      (hinput : TokenInput x w utxos coins details.token c extra change)
      (hidx : (coins ++ extra)[idx]? = some c)
      (hgrows : Grows b extra (change.map (·.output)) b₁)
      (hrewrites : Rewrites b₁ idx i i' b₂)
      (hvalue : i'.issuanceValueAmount = some satoshiAsset)
      (hkeys : i'.issuanceInflationKeys = i.issuanceInflationKeys)
      (hids : i'.issuanceIds x.hash =
        x.hash.ids i.previousOutput c.secrets.assetBf details.entropy false)
      (hissued : PaysTo x w false satoshiAsset asset addressAsset r)
      (hpaid : Grows b₂ [] [r.output] b') :
      Issues x w utxos coins b (.reissuance asset satoshiAsset addressAsset issuanceTx) extra
        (change ++ [r]) b'

theorem addIssuance_ok {coins : List Coin} (hb : Grows (TxBuilder.start w) coins outs b)
    (h : t.addIssuance x w utxos b = .ok u b') : ∃ extra recipients,
      Issues x w utxos coins b t.issuanceRequest extra recipients b' := by
  unfold addIssuance at h
  cases hreq : t.issuanceRequest with
  | none =>
    rw [hreq] at h
    obtain ⟨-, rfl⟩ := pure_ok_iff.1 h
    exact ⟨[], [], .none⟩
  | issuance satoshiAsset addressAsset satoshiToken addressToken contract =>
    rw [hreq] at h
    obtain ⟨ids, b₁, hset, h⟩ := bind_ok_iff.1 h
    obtain ⟨i, i', hrewrites, rfl, hvalue, hkeys⟩ := setIssuance_ok hset
    obtain ⟨_, b₂, hadd, h⟩ := bind_ok_iff.1 h
    obtain ⟨lAsset, hasset, hgrows⟩ := runIf_addIssued_ok hadd
    obtain ⟨lToken, htoken, hgrows'⟩ := runIf_addIssued_ok h
    refine ⟨_, _, .issuance hrewrites hvalue hkeys hasset htoken ?_⟩
    rw [map_append]
    exact hgrows.trans hgrows'
  | reissuance asset satoshiAsset addressAsset issuanceTx =>
    rw [hreq] at h
    obtain ⟨details, hdetails, h⟩ := liftExcept_bind_ok_iff.1 h
    obtain ⟨r, b₁, htoken, h⟩ := bind_ok_iff.1 h
    obtain ⟨c, extra, change, hcoin, hinput, hidx, hbf, hgrows⟩ := tokenInput_ok hb htoken
    obtain ⟨i', b₂, hset, h⟩ := bind_ok_iff.1 h
    obtain ⟨i, hrewrites, hvalue, hkeys, hids⟩ := setReissuance_ok hset
    obtain ⟨r', hissued, hpaid⟩ := addIssued_ok h
    rw [hbf] at hids
    exact ⟨_, _, .reissuance hdetails hcoin hinput hidx hgrows hrewrites hvalue hkeys hids
      hissued hpaid⟩

theorem Issues.spent {coins extra : List Coin} {recipients : List Recipient}
    {request : IssuanceRequest} (h : Issues x w utxos coins b request extra recipients b') :
    b'.pset.inputs.map (·.spent) = b.pset.inputs.map (·.spent) ++ extra.map (·.spent) ∧
      b'.pset.outputs = b.pset.outputs ++ recipients.map (·.output) := by
  cases h with
  | none => simp
  | issuance hrewrites _ _ _ _ hgrows =>
    refine ⟨?_, ?_⟩
    · rw [hgrows.spent, hrewrites.map_spent]
    · rw [hgrows.outputs, hrewrites.outputs]
  | reissuance _ _ _ _ hgrows hrewrites _ _ _ _ hpaid =>
    refine ⟨?_, ?_⟩
    · rw [hpaid.spent, hrewrites.map_spent, hgrows.spent, map_nil, append_nil]
    · rw [hpaid.outputs, hrewrites.outputs, hgrows.outputs, map_append, append_assoc, map_singleton]

/-! ## Change and fee -/

def Build.withOutputs (b : Build) (outs : List PsetOutput) : Build :=
  { b with pset := { b.pset with outputs := outs } }

theorem modify_append_length (l r : List α) (a : α) (f : α → α) :
    (l ++ a :: r).modify l.length f = l ++ f a :: r := by
  induction l with
  | nil => rfl
  | cons c l ih => simpa using ih

theorem eraseIdx_append_length (l r : List α) (a : α) :
    (l ++ a :: r).eraseIdx l.length = l ++ r := by
  induction l with
  | nil => rfl
  | cons c l ih => simpa using ih

def Recipient.withAmount (r : Recipient) (satoshi : UInt64) : Recipient :=
  { r with satoshi := satoshi }

theorem setAmount_ok {amount : UInt64} (hb : b.pset.outputs = l ++ r.output :: outs)
    (h : TxBuilder.setAmount l.length amount b = .ok u b') :
    b' = b.withOutputs (l ++ (r.withAmount amount).output :: outs) := by
  obtain rfl := modify_ok_iff.1 h
  rw [hb, modify_append_length]
  rfl

theorem setAmount_fee_ok {amount : UInt64}
    (hb : b.pset.outputs = l ++ [.newExplicit [] satoshi asset])
    (h : TxBuilder.setAmount l.length amount b = .ok u b') :
    b' = b.withOutputs (l ++ [.newExplicit [] amount asset]) := by
  obtain rfl := modify_ok_iff.1 h
  rw [hb, modify_append_length]
  rfl

theorem removeOutput_ok {o : PsetOutput} (hb : b.pset.outputs = l ++ o :: outs)
    (h : TxBuilder.removeOutput l.length b = .ok u b') : b' = b.withOutputs (l ++ outs) := by
  obtain rfl := modify_ok_iff.1 h
  rw [hb, eraseIdx_append_length]
  rfl

abbrev IsPolicyChange (x : Builder) (w : Wollet) (t : TxBuilder) (satoshi : UInt64) :
    Recipient → Prop :=
  PaysTo x w true satoshi x.env.policyAsset t.drainTo

theorem PaysTo.withAmount (h : PaysTo x w isChange satoshi asset address r) (amount : UInt64) :
    PaysTo x w isChange amount asset address (r.withAmount amount) := by
  obtain ⟨_, rfl, hpays⟩ := h.fromAddress
  exact hpays amount

theorem policyAddressee_ok (h : t.policyAddressee x w satoshi b = .ok r b') :
    IsPolicyChange x w t satoshi r ∧ Grows b [] [] b' := by
  unfold policyAddressee at h
  unfold IsPolicyChange PaysTo
  cases hdrain : t.drainTo with
  | some address =>
    rw [hdrain] at h
    obtain ⟨rfl, rfl⟩ := pure_ok_iff.1 h
    exact ⟨rfl, .refl _⟩
  | none =>
    rw [hdrain] at h
    exact addresseeChange_ok h

theorem nextOutput_ok (h : TxBuilder.nextOutput b = .ok n b') :
    n = b.pset.outputs.length ∧ b = b' := by
  replace h := get_bind_ok_iff.1 h
  obtain ⟨rfl, rfl⟩ := pure_ok_iff.1 h
  exact ⟨rfl, rfl⟩

/-- The policy change before the fee is known. It is missing just if the fee is in another asset and
nothing is left. -/
structure PolicyChange (x : Builder) (w : Wollet) (t : TxBuilder) (sums : UInt64 × UInt64)
    (change : Option Recipient) : Prop where
  owned : ∀ r ∈ change, ∃ satoshi, IsPolicyChange x w t satoshi r
  missing : change = none ↔ t.feeInAsset ≠ none ∧ sums.1 = sums.2
  covered : t.feeInAsset ≠ none → sums.2 ≤ sums.1

theorem sub_pos_iff {a c : UInt64} (h : c ≤ a) : 0 < a - c ↔ c < a := by
  rw [UInt64.lt_iff_toNat_lt, UInt64.lt_iff_toNat_lt, UInt64.toNat_sub_of_le _ _ h]
  exact Nat.sub_pos_iff_lt

theorem addPolicyChange_ok {idx : Option Nat} (h : t.addPolicyChange x w sums b = .ok idx b') :
    ∃ change, PolicyChange x w t sums change ∧ idx = change.map (fun _ => b.pset.outputs.length) ∧
      Grows b [] (change.toList.map (·.output)) b' := by
  unfold addPolicyChange at h
  generalize hpolicyFee : (if t.feeInAsset.isSome then 0 else tempFee) = policyFee at h
  have hnoFee : t.feeInAsset ≠ none → policyFee = 0 := by
    intro hfee
    rw [← hpolicyFee, if_pos (Option.isSome_iff_ne_none.2 hfee)]
  obtain ⟨henough, h⟩ := ensureElse_bind_ok_iff.1 h
  have hcovered : t.feeInAsset ≠ none → sums.2 ≤ sums.1 := by
    intro hfee
    rw [hnoFee hfee] at henough
    obtain ⟨e, he⟩ := Option.ne_none_iff_exists'.1 hfee
    simpa [he] using henough
  split at h
  · rename_i hmore
    have hleft : ¬ (t.feeInAsset ≠ none ∧ sums.1 = sums.2) := by
      intro ⟨hfee, heq⟩
      simp [hnoFee hfee, heq, hfee] at hmore
    obtain ⟨r, b₁, hr, h⟩ := bind_ok_iff.1 h
    obtain ⟨hown, hgrows⟩ := policyAddressee_ok hr
    obtain ⟨n, b₂, hn, h⟩ := bind_ok_iff.1 h
    obtain ⟨rfl, rfl⟩ := nextOutput_ok hn
    obtain ⟨_, b₃, hadd, h⟩ := bind_ok_iff.1 h
    obtain ⟨rfl, rfl⟩ := pure_ok_iff.1 h
    refine ⟨some r, ⟨?_, iff_of_false (Option.some_ne_none r) hleft, hcovered⟩, ?_,
      hgrows.trans (pushOutput_ok hadd)⟩
    · intro r' hr'
      cases hr'
      exact ⟨_, hown⟩
    · rw [hgrows.outputs, append_nil]
      rfl
  · rename_i hnone
    obtain ⟨rfl, rfl⟩ := pure_ok_iff.1 h
    rw [Bool.or_eq_true, not_or] at hnone
    have hfee : t.feeInAsset ≠ none := by simpa using hnone.2
    refine ⟨none, ⟨fun r hr => absurd hr (Option.not_mem_none r), iff_of_true rfl ⟨hfee, ?_⟩,
      hcovered⟩, rfl, .refl _⟩
    have hzero : ¬ 0 < sums.1 - sums.2 := by simpa [hnoFee hfee] using hnone.1
    rw [sub_pos_iff (hcovered hfee)] at hzero
    exact UInt64.le_antisymm (UInt64.not_lt.1 hzero) (hcovered hfee)

/-- The change of the fee asset before the fee is known. There is none if the fee is in the policy
asset. -/
def FeeChange (x : Builder) (w : Wollet) (t : TxBuilder) (fee : UInt64 × UInt64)
    (change : Option Recipient) : Prop :=
  match t.feeInAsset with
  | some (asset, _) => IsChangeOf x w fee asset change
  | none => change = none

theorem addFeeAssetChange_ok {idx : Option Nat} (h : t.addFeeAssetChange x w fee b = .ok idx b') :
    ∃ change, FeeChange x w t fee change ∧ idx = change.map (fun _ => b.pset.outputs.length) ∧
      Grows b [] (change.toList.map (·.output)) b' := by
  unfold addFeeAssetChange at h
  unfold FeeChange
  cases hfee : t.feeInAsset with
  | none =>
    rw [hfee] at h
    obtain ⟨rfl, rfl⟩ := pure_ok_iff.1 h
    exact ⟨none, rfl, rfl, .refl _⟩
  | some e =>
    rw [hfee] at h
    obtain ⟨henough, h⟩ := ensureElse_bind_ok_iff.1 h
    have hle : fee.2 ≤ fee.1 := of_decide_eq_true henough
    split at h
    · rename_i hmore
      obtain ⟨n, b₂, hn, h⟩ := bind_ok_iff.1 h
      obtain ⟨rfl, rfl⟩ := nextOutput_ok hn
      obtain ⟨_, b₃, hadd, h⟩ := bind_ok_iff.1 h
      obtain ⟨rfl, rfl⟩ := pure_ok_iff.1 h
      obtain ⟨r, hr, hgrows⟩ := addChange_ok hadd
      exact ⟨some r, ⟨(sub_pos_iff hle).1 hmore, hr⟩, rfl, hgrows⟩
    · rename_i hmore
      obtain ⟨rfl, rfl⟩ := pure_ok_iff.1 h
      refine ⟨none, UInt64.le_antisymm (UInt64.not_lt.1 ?_) hle, rfl, .refl _⟩
      exact fun hlt => hmore ((sub_pos_iff hle).2 hlt)

theorem weight_ok (h : t.weight x b = .ok n b') : b = b' := by
  replace h := get_bind_ok_iff.1 h
  obtain ⟨_, -, h⟩ := liftExcept_bind_ok_iff.1 h
  obtain ⟨-, rfl⟩ := pure_ok_iff.1 h
  rfl

def feeOutput (q : UInt64) (asset : AssetId) : PsetOutput := .newExplicit [] q asset

theorem settlePolicyFee_ok (hb : b.pset.outputs = base ++ [r.output, feeOutput satoshi asset])
    (h : TxBuilder.settlePolicyFee x sums q (some base.length) (base.length + 1) b = .ok u b') :
    sums.2 + q < sums.1 ∧ b' = b.withOutputs
        (base ++ [(r.withAmount (sums.1 - sums.2 - q)).output, feeOutput q asset]) := by
  obtain ⟨hroom, h⟩ := ensureElse_bind_ok_iff.1 h
  obtain ⟨_, b₁, hchange, h⟩ := bind_ok_iff.1 h
  obtain rfl := setAmount_ok hb hchange
  refine ⟨by simpa using hroom, ?_⟩
  have hb₁ : base ++ [(r.withAmount (sums.1 - sums.2 - q)).output, feeOutput satoshi asset] =
      (base ++ [(r.withAmount (sums.1 - sums.2 - q)).output]) ++ [feeOutput satoshi asset] := by
    simp
  have hlength : base.length + 1 =
      (base ++ [(r.withAmount (sums.1 - sums.2 - q)).output]).length := by simp
  rw [hlength] at h
  rw [setAmount_fee_ok hb₁ h]
  simp [Build.withOutputs, feeOutput]

/-- What becomes of the change of the fee asset: it is kept, or folded into the fee if it would be
dust. -/
inductive ChangeSettled (change q : UInt64) (dust : Nat) :
    Option Recipient → Option Recipient → UInt64 → Prop
  | missing : ChangeSettled change q dust none none q
  | kept (r : Recipient) (hkept : dust < change.toNat) :
      ChangeSettled change q dust (some r) (some (r.withAmount change)) q
  | folded (r : Recipient) (hdust : ¬ dust < change.toNat) :
      ChangeSettled change q dust (some r) none (q + change)

theorem settleChange_ok
    (hb : b.pset.outputs = base ++ (c.toList.map (·.output) ++ [feeOutput satoshi asset]))
    (h : TxBuilder.settleChange change q dust (c.map fun _ => base.length)
      (base.length + c.toList.length) b = .ok u b') :
    ∃ c' q', ChangeSettled change q dust c c' q' ∧
      b' = b.withOutputs (base ++ (c'.toList.map (·.output) ++ [feeOutput q' asset])) := by
  cases c with
  | none =>
    refine ⟨none, q, .missing, ?_⟩
    exact setAmount_fee_ok hb h
  | some r =>
    unfold settleChange at h
    simp only [Option.map_some, Option.toList_some, length_singleton] at h
    split at h
    · rename_i hkept
      obtain ⟨_, b₁, hchange, h⟩ := bind_ok_iff.1 h
      obtain rfl := setAmount_ok hb hchange
      refine ⟨_, q, .kept r hkept, ?_⟩
      have hb₁ : base ++ (r.withAmount change).output :: [feeOutput satoshi asset] =
          (base ++ [(r.withAmount change).output]) ++ [feeOutput satoshi asset] := by simp
      have hlength : base.length + 1 = (base ++ [(r.withAmount change).output]).length := by simp
      rw [hlength] at h
      rw [setAmount_fee_ok hb₁ h]
      simp [Build.withOutputs, feeOutput]
    · rename_i hdust
      obtain ⟨_, b₁, hfee, h⟩ := bind_ok_iff.1 h
      have hb₁ : b.pset.outputs = (base ++ [r.output]) ++ [feeOutput satoshi asset] := by
        rw [hb]
        simp
      have hlength : base.length + 1 = (base ++ [r.output]).length := by simp
      rw [hlength] at hfee
      obtain rfl := setAmount_fee_ok hb₁ hfee
      refine ⟨none, _, .folded r hdust, ?_⟩
      have hb₂ : (base ++ [r.output]) ++ [PsetOutput.newExplicit [] (q + change) asset] =
          base ++ r.output :: [feeOutput (q + change) asset] := by
        simp [feeOutput]
      rw [removeOutput_ok hb₂ h]
      simp [Build.withOutputs]

theorem setAmountAt_ok {amount : UInt64}
    (hb : b.pset.outputs = base ++ (c.toList.map (·.output) ++ outs))
    (h : TxBuilder.setAmountAt (c.map fun _ => base.length) amount b = .ok u b') :
    b' = b.withOutputs (base ++ ((c.map (·.withAmount amount)).toList.map (·.output) ++ outs)) := by
  cases c with
  | none =>
    obtain ⟨-, rfl⟩ := pure_ok_iff.1 h
    exact congrArg b.withOutputs hb
  | some r => exact setAmount_ok hb h

/-- A policy fee in another asset, rounded up, with an atom of margin. -/
def feeAmountX (policyFee rate : UInt64) : UInt64 :=
  UInt64.ofNat (TxBuilder.convertValue policyFee.toNat rate.toNat) + 1

theorem toNat_feeAmountX (h : TxBuilder.convertValue policyFee.toNat rate.toNat < 2 ^ 64 - 1) :
    (feeAmountX policyFee rate).toNat = TxBuilder.convertValue policyFee.toNat rate.toNat + 1 := by
  rw [feeAmountX, UInt64.toNat_add, UInt64.toNat_ofNat']
  simp only [UInt64.reduceToNat]
  omega

theorem settleFeeAsset_ok
    (hb : b.pset.outputs = base ++ (p.toList.map (·.output) ++
      (c.toList.map (·.output) ++ [feeOutput satoshi asset])))
    (h : TxBuilder.settleFeeAsset sums fee asset rate policyFee (p.map fun _ => base.length)
      (c.map fun _ => base.length + p.toList.length)
      (base.length + p.toList.length + c.toList.length) b = .ok u b') :
    ∃ c' q', TxBuilder.convertValue policyFee.toNat rate.toNat < 2 ^ 64 - 1 ∧
      fee.2 + feeAmountX policyFee rate ≤ fee.1 ∧
      ChangeSettled (fee.1 - fee.2 - feeAmountX policyFee rate) (feeAmountX policyFee rate)
        (TxBuilder.convertValue 294 rate.toNat) c c' q' ∧
      b' = b.withOutputs (base ++ ((p.map (·.withAmount (sums.1 - sums.2))).toList.map (·.output) ++
        (c'.toList.map (·.output) ++ [feeOutput q' asset]))) := by
  obtain ⟨hlt, h⟩ := ensureElse_bind_ok_iff.1 h
  obtain ⟨hroom, h⟩ := ensureElse_bind_ok_iff.1 h
  obtain ⟨_, b₁, hpolicy, h⟩ := bind_ok_iff.1 h
  obtain rfl := setAmountAt_ok hb hpolicy
  obtain ⟨_, b₂, hchange, h⟩ := bind_ok_iff.1 h
  have hlength : base.length + p.toList.length =
      (base ++ (p.map (·.withAmount (sums.1 - sums.2))).toList.map (·.output)).length := by
    cases p <;> simp
  rw [hlength] at hchange
  obtain ⟨c', q', hsettled, rfl⟩ := settleChange_ok (append_assoc _ _ _).symm hchange
  replace h := get_bind_ok_iff.1 h
  obtain ⟨-, rfl⟩ := ensureElse_ok_iff.1 h
  refine ⟨c', q', of_decide_eq_true hlt, by simpa [feeAmountX] using hroom, hsettled, ?_⟩
  simp [Build.withOutputs]

/-- **How the fee is paid.** A fee in the policy asset is taken from the policy change, which must
not run out. A fee in another asset is taken from that asset's change, and the policy change is
what is left. -/
inductive Settles (x : Builder) (w : Wollet) (t : TxBuilder) (sums fee : UInt64 × UInt64)
    (weighed : UInt64) : List Recipient → UInt64 → Prop
  | policy {r : Recipient} (hfee : t.feeInAsset = none) (hroom : sums.2 + weighed < sums.1)
      (hr : IsPolicyChange x w t (sums.1 - sums.2 - weighed) r) :
      Settles x w t sums fee weighed [r] weighed
  | asset {asset : AssetId} {rate : UInt64} {p c c' : Option Recipient} {q : UInt64}
      (hfee : t.feeInAsset = some (asset, rate))
      (howned : ∀ r ∈ p, IsPolicyChange x w t (sums.1 - sums.2) r)
      (hmissing : p = none ↔ sums.1 = sums.2) (hcovered : sums.2 ≤ sums.1)
      (hchange : IsChangeOf x w fee asset c) (hpos : 0 < feeAmountX weighed rate)
      (hroom : fee.2 + feeAmountX weighed rate ≤ fee.1)
      (hsettled : ChangeSettled (fee.1 - fee.2 - feeAmountX weighed rate)
        (feeAmountX weighed rate) (TxBuilder.convertValue 294 rate.toNat) c c' q) :
      Settles x w t sums fee weighed (p.toList ++ c'.toList) q

def TxBuilder.feePaidIn (x : Builder) (t : TxBuilder) : AssetId :=
  (t.feeInAsset.map (·.1)).getD x.env.policyAsset

/-- The fee step until everything is in place: the indexes of the policy change, of the fee asset's
change and of the fee output. -/
def TxBuilder.draftFee (x : Builder) (w : Wollet) (t : TxBuilder) (sums fee : UInt64 × UInt64) :
    BuildM ((Option Nat × Option Nat) × Nat) := do
  let policyIdx ← t.addPolicyChange x w sums
  let changeIdx ← t.addFeeAssetChange x w fee
  let feeIdx ← nextOutput
  pushOutput (.newExplicit [] tempFee (t.feePaidIn x))
  pure ((policyIdx, changeIdx), feeIdx)

/-- The fee step until the fee is known: the indexes, and the fee in the policy asset. -/
def TxBuilder.prepareFee (x : Builder) (w : Wollet) (t : TxBuilder) (sums fee : UInt64 × UInt64) :
    BuildM ((Option Nat × Option Nat) × Nat × UInt64) := do
  let idx ← t.draftFee x w sums fee
  let weight ← t.weight x
  pure (idx.1, idx.2, x.calculateFee weight t.feeRate)

theorem addFee_asset_eq (hfee : t.feeInAsset = some (asset, rate)) (sums fee : UInt64 × UInt64) :
    t.addFee x w sums fee = t.prepareFee x w sums fee >>= fun r =>
      TxBuilder.settleFeeAsset sums fee asset rate r.2.2 r.1.1 r.1.2 r.2.1 := by
  simp only [addFee, prepareFee, draftFee, feePaidIn, hfee, bind_assoc, pure_bind]

theorem addFee_policy_eq (hfee : t.feeInAsset = none) (sums fee : UInt64 × UInt64) :
    t.addFee x w sums fee = t.prepareFee x w sums fee >>= fun r =>
      TxBuilder.settlePolicyFee x sums r.2.2 r.1.1 r.2.1 := by
  simp only [addFee, prepareFee, draftFee, feePaidIn, hfee, bind_assoc, pure_bind]

/-- **What is in place when the transaction is weighed**: with temporary amounts, the policy change,
the fee asset's change and the fee. -/
structure Drafted (x : Builder) (w : Wollet) (t : TxBuilder) (sums fee : UInt64 × UInt64)
    (b : Build) (p c : Option Recipient) (idx : (Option Nat × Option Nat) × Nat) (b' : Build) :
    Prop where
  policy : PolicyChange x w t sums p
  change : FeeChange x w t fee c
  policyIdx : idx.1.1 = p.map fun _ => b.pset.outputs.length
  changeIdx : idx.1.2 = c.map fun _ => b.pset.outputs.length + p.toList.length
  feeIdx : idx.2 = b.pset.outputs.length + p.toList.length + c.toList.length
  inputs : b'.pset.inputs = b.pset.inputs
  outputs : b'.pset.outputs = b.pset.outputs ++ (p.toList.map (·.output) ++
    (c.toList.map (·.output) ++ [feeOutput TxBuilder.tempFee (t.feePaidIn x)]))

theorem draftFee_ok {idx : (Option Nat × Option Nat) × Nat}
    (h : t.draftFee x w sums fee b = .ok idx b') : ∃ p c, Drafted x w t sums fee b p c idx b' := by
  obtain ⟨policyIdx, b₁, hpolicy, h⟩ := bind_ok_iff.1 h
  obtain ⟨p, hp, rfl, hgrows₁⟩ := addPolicyChange_ok hpolicy
  obtain ⟨changeIdx, b₂, hchange, h⟩ := bind_ok_iff.1 h
  obtain ⟨c, hc, rfl, hgrows₂⟩ := addFeeAssetChange_ok hchange
  obtain ⟨n, _, hnext, h⟩ := bind_ok_iff.1 h
  obtain ⟨rfl, rfl⟩ := nextOutput_ok hnext
  obtain ⟨_, b₃, hpush, h⟩ := bind_ok_iff.1 h
  have hgrows₃ := pushOutput_ok hpush
  obtain ⟨rfl, rfl⟩ := pure_ok_iff.1 h
  have hlength : b₁.pset.outputs.length = b.pset.outputs.length + p.toList.length := by
    rw [hgrows₁.outputs, length_append, length_map]
  refine ⟨p, c, hp, hc, rfl, ?_, ?_, ?_, ?_⟩
  · simp only [hlength]
  · simp only [hgrows₂.outputs, length_append, length_map, hlength]
  · exact hgrows₃.same_inputs.trans (hgrows₂.same_inputs.trans hgrows₁.same_inputs)
  · rw [hgrows₃.outputs, hgrows₂.outputs, hgrows₁.outputs, append_assoc, append_assoc]
    rfl

theorem prepareFee_ok {r : (Option Nat × Option Nat) × Nat × UInt64}
    (h : t.prepareFee x w sums fee b = .ok r b') :
    ∃ idx weight, t.draftFee x w sums fee b = .ok idx b' ∧ t.weight x b' = .ok weight b' ∧
      r = (idx.1, idx.2, x.calculateFee weight t.feeRate) := by
  obtain ⟨idx, b₁, hdraft, h⟩ := bind_ok_iff.1 h
  obtain ⟨weight, b₂, hweight, h⟩ := bind_ok_iff.1 h
  obtain ⟨rfl, rfl⟩ := pure_ok_iff.1 h
  obtain rfl := weight_ok hweight
  exact ⟨idx, weight, hdraft, hweight, rfl⟩

/-- An output with another amount. -/
def PsetOutput.Reset (o o' : PsetOutput) : Prop :=
  ∃ amount : Option UInt64, amount.isSome = o.amount.isSome ∧ o' = { o with amount := amount }

/-- **The outputs after the amounts are set**: the one before the fee may be gone. -/
def Resettled (outs outs' : List PsetOutput) : Prop :=
  ∃ kept gone fee, outs = kept ++ (gone ++ [fee]) ∧ gone.length ≤ 1 ∧ fee.blindingKey = none ∧
    List.Forall₂ PsetOutput.Reset (kept ++ [fee]) outs'

theorem forall₂_reset_refl (l : List PsetOutput) : List.Forall₂ PsetOutput.Reset l l :=
  forall₂_same.2 fun o _ => ⟨o.amount, rfl, rfl⟩

theorem forall₂_reset_withAmount (c : Option Recipient) (amount : UInt64) :
    List.Forall₂ PsetOutput.Reset (c.toList.map (·.output))
      ((c.map (·.withAmount amount)).toList.map (·.output)) := by
  cases c with
  | none => exact .nil
  | some r => exact .cons ⟨some amount, rfl, rfl⟩ .nil

theorem ChangeSettled.resettled {q' : UInt64} {c c' : Option Recipient}
    (h : ChangeSettled change q dust c c' q') (amount : UInt64) :
    Resettled (base ++ (p.toList.map (·.output) ++
        (c.toList.map (·.output) ++ [feeOutput satoshi asset])))
      (base ++ ((p.map (·.withAmount amount)).toList.map (·.output) ++
        (c'.toList.map (·.output) ++ [feeOutput q' asset]))) := by
  have hkept : ∃ kept gone, c.toList.map (·.output) = kept ++ gone ∧ gone.length ≤ 1 ∧
      List.Forall₂ PsetOutput.Reset kept (c'.toList.map (·.output)) := by
    cases h with
    | missing => exact ⟨[], [], rfl, Nat.zero_le 1, .nil⟩
    | kept r =>
      exact ⟨_, [], (append_nil _).symm, Nat.zero_le 1, forall₂_reset_withAmount (some r) change⟩
    | folded r => exact ⟨[], _, rfl, Nat.le_refl 1, .nil⟩
  obtain ⟨kept, gone, hc, hgone, hreset⟩ := hkept
  refine ⟨base ++ (p.toList.map (·.output) ++ kept), gone, feeOutput satoshi asset, ?_, hgone, rfl,
    ?_⟩
  · simp only [hc, append_assoc]
  · rw [append_assoc, append_assoc]
    exact rel_append (forall₂_reset_refl base) (rel_append (forall₂_reset_withAmount p amount)
      (rel_append hreset (.cons ⟨some q', rfl, rfl⟩ .nil)))

theorem feePaidIn_eq {asset : AssetId} (h : t.feeInAsset = some (asset, rate)) :
    t.feePaidIn x = asset := by
  rw [TxBuilder.feePaidIn, h]
  rfl

/-- **The fee step**: the transaction is drafted and weighed, and the fee is settled. -/
theorem addFee_ok (h : t.addFee x w sums fee b = .ok u b') :
    ∃ idx draft weight recipients q, t.draftFee x w sums fee b = .ok idx draft ∧
      t.weight x draft = .ok weight draft ∧ draft.pset.inputs = b.pset.inputs ∧
      Settles x w t sums fee (x.calculateFee weight t.feeRate) recipients q ∧
      b'.pset.inputs = b.pset.inputs ∧ b'.pset.outputs = b.pset.outputs ++
        (recipients.map (·.output) ++ [feeOutput q (t.feePaidIn x)]) ∧
      Resettled draft.pset.outputs b'.pset.outputs := by
  cases hfee : t.feeInAsset with
  | none =>
    rw [addFee_policy_eq hfee] at h
    obtain ⟨r, draft, hprepare, h⟩ := bind_ok_iff.1 h
    obtain ⟨idx, weight, hdraft, hweight, rfl⟩ := prepareFee_ok hprepare
    obtain ⟨p, c, hd⟩ := draftFee_ok hdraft
    have hnone : c = none := by
      have hchange := hd.change
      rwa [FeeChange, hfee] at hchange
    subst hnone
    cases p with
    | none => exact absurd hfee (hd.policy.missing.1 rfl).1
    | some change =>
      obtain ⟨satoshi, hown⟩ := hd.policy.owned change rfl
      simp only [hd.policyIdx, hd.feeIdx] at h
      obtain ⟨hroom, rfl⟩ := settlePolicyFee_ok hd.outputs h
      refine ⟨idx, draft, weight, [change.withAmount _], _, hdraft, hweight, hd.inputs,
        .policy hfee hroom (hown.withAmount _), hd.inputs, rfl, ?_⟩
      have hsettled : ChangeSettled 0 (x.calculateFee weight t.feeRate) 0 none none _ := .missing
      rw [hd.outputs]
      exact hsettled.resettled (p := some change) _
  | some e =>
    obtain ⟨asset, rate⟩ := e
    rw [addFee_asset_eq hfee] at h
    obtain ⟨r, draft, hprepare, h⟩ := bind_ok_iff.1 h
    obtain ⟨idx, weight, hdraft, hweight, rfl⟩ := prepareFee_ok hprepare
    obtain ⟨p, c, hd⟩ := draftFee_ok hdraft
    have hc : IsChangeOf x w fee asset c := by
      have hchange := hd.change
      rwa [FeeChange, hfee] at hchange
    have houtputs := hd.outputs
    rw [feePaidIn_eq hfee] at houtputs ⊢
    simp only [hd.policyIdx, hd.changeIdx, hd.feeIdx] at h
    obtain ⟨c', q', hlt, hroom, hsettled, rfl⟩ := settleFeeAsset_ok houtputs h
    have hne : t.feeInAsset ≠ none := by simp [hfee]
    have hpos : 0 < feeAmountX (x.calculateFee weight t.feeRate) rate := by
      rw [UInt64.lt_iff_toNat_lt, toNat_feeAmountX hlt]
      exact Nat.succ_pos _
    refine ⟨idx, draft, weight, (p.map (·.withAmount (sums.1 - sums.2))).toList ++ c'.toList, q',
      hdraft, hweight, hd.inputs, .asset hfee ?_ ?_ (hd.policy.covered hne) hc hpos hroom hsettled,
      hd.inputs, ?_, ?_⟩
    · intro r hr
      obtain ⟨r', hr', rfl⟩ := Option.mem_map.1 hr
      obtain ⟨satoshi, hown⟩ := hd.policy.owned r' hr'
      exact hown.withAmount _
    · rw [Option.map_eq_none_iff, hd.policy.missing]
      exact and_iff_right hne
    · rw [map_append, append_assoc]
      rfl
    · rw [houtputs]
      exact hsettled.resettled _

/-! ## The whole run -/

namespace TxBuilder

/-- An input of the finished transaction. The transaction it carries has no proofs any more, and it
may signal replaceability. -/
def signal (t : TxBuilder) (i : PsetInput) : PsetInput :=
  { i with
    nonWitnessUtxo := i.nonWitnessUtxo.map (·.eraseProofs)
    sequence := if t.enableRbf then some enableRbfNoLocktime else i.sequence }

theorem signal_spent (i : PsetInput) : (t.signal i).spent = i.spent := rfl

theorem complete_ok {p : Pset} (h : t.complete x b = .ok p b') :
    p = { b.pset with inputs := b.pset.inputs.map t.signal } := by
  replace h := get_bind_ok_iff.1 h
  obtain ⟨-, h⟩ := ensureElse_bind_ok_iff.1 h
  obtain ⟨_, b₁, hblind, h⟩ := bind_ok_iff.1 h
  obtain ⟨_, b₂, hdetails, h⟩ := bind_ok_iff.1 h
  obtain ⟨rfl, -⟩ := pure_ok_iff.1 h
  unfold signal
  by_cases hrbf : t.enableRbf = true
  · simp only [if_pos hrbf, map_map]
    rfl
  · simp only [if_neg hrbf]

theorem assets_nodup : (t.assets x selected).Nodup :=
  (x.order.assets_perm _).nodup_iff.2 (nodup_dedup _)

/-- The coins that are spent, apart from a token. -/
def coins (x : Builder) (t : TxBuilder) (utxos : HashMap OutPoint WalletTxOut)
    (selected : List WalletTxOut) : List Coin :=
  (t.assets x selected).flatMap (t.coinsFor x utxos selected) ++ t.policySpent x utxos selected

def paid (x : Builder) (t : TxBuilder) (selected : List WalletTxOut)
    (change : AssetId → Option Recipient) : List PsetOutput :=
  (t.assets x selected).flatMap (t.outputsFor change) ++
    (t.recipientsOf t.policyAsset).map (·.output)

/-- What is spent of the fee asset and what its recipients get. -/
def feeSums (x : Builder) (t : TxBuilder) (utxos : HashMap OutPoint WalletTxOut)
    (selected : List WalletTxOut) : UInt64 × UInt64 :=
  match t.feeInAsset with
  | some (asset, _) => t.sumsOf x utxos selected asset
  | none => (0, 0)

/-- `finish_inner`, apart from LiquiDEX, until the fee is settled: what comes in and goes out of the
policy asset and of the fee asset. -/
def beforeFee (x : Builder) (w : Wollet) (t : TxBuilder) :
    BuildM ((UInt64 × UInt64) × UInt64 × UInt64) := do
  let all ← liftExcept w.utxosMap
  let utxos := t.candidates all
  let selected ← liftExcept (t.selectedCoins utxos)
  liftExcept t.checkRate
  let fee ← t.addAssets x w utxos selected (t.assets x selected) (0, 0)
  let sums ← t.addPolicyAsset x w utxos selected
  t.addIssuance x w utxos
  pure (sums, fee)

/-- The weight that is passed to the fee calculation. -/
def weighing (x : Builder) (w : Wollet) (t : TxBuilder) : BuildM Nat := do
  let r ← t.beforeFee x w
  let _ ← t.draftFee x w r.1 r.2
  t.weight x

/-- The fee in the policy asset that the transaction is weighed at. -/
def weighedFee (x : Builder) (w : Wollet) (t : TxBuilder) : Option UInt64 :=
  match t.weighing x w (start w) with
  | .ok weight _ => some (x.calculateFee weight t.feeRate)
  | .error _ _ => none

/-- **A run of the builder**: what it drew, whom it paid, and how the finished transaction is put
together from that. -/
structure Finished (x : Builder) (w : Wollet) (t : TxBuilder) (p : Pset) where
  all : HashMap OutPoint WalletTxOut
  selected : List WalletTxOut
  change : AssetId → Option Recipient
  extra : List Coin
  issuedTo : List Recipient
  settledTo : List Recipient
  fee : UInt64
  assembled : Build
  issued : Build
  draft : Build
  weight : Nat
  utxosMap : w.utxosMap = .ok all
  selectedCoins : t.selectedCoins (t.candidates all) = .ok selected
  isChange : ∀ a ∈ t.assets x selected, t.IsChange x w (t.candidates all) selected change a
  grows : Grows (start w) (t.coins x (t.candidates all) selected) (t.paid x selected change)
    assembled
  issues : Issues x w (t.candidates all) (t.coins x (t.candidates all) selected) assembled
    t.issuanceRequest extra issuedTo issued
  weighs : t.weighing x w (start w) = .ok weight draft
  settles : Settles x w t (t.policySums x (t.candidates all) selected)
    (t.feeSums x (t.candidates all) selected) (x.calculateFee weight t.feeRate) settledTo fee
  inputs : p.inputs = issued.pset.inputs.map t.signal
  outputs : p.outputs = t.paid x selected change ++ issuedTo.map (·.output) ++
    (settledTo.map (·.output) ++ [feeOutput fee (t.feePaidIn x)])
  draftInputs : draft.pset.inputs = issued.pset.inputs
  resettled : Resettled draft.pset.outputs p.outputs

theorem addAssets_feeSums {r : UInt64 × UInt64}
    (hnone : (∀ a ∈ t.assets x selected, t.isFeeAsset a = false) → r = (0, 0))
    (hsome : ∀ a ∈ t.assets x selected, t.isFeeAsset a = true → r = t.sumsOf x utxos selected a) :
    r = t.feeSums x utxos selected := by
  unfold feeSums
  cases hfee : t.feeInAsset with
  | none =>
    refine hnone fun a _ => ?_
    rw [isFeeAsset, hfee]
    rfl
  | some e =>
    obtain ⟨asset, rate⟩ := e
    refine hsome asset ?_ (isFeeAsset_iff.2 ⟨rate, hfee⟩)
    rw [assets, (x.order.assets_perm _).mem_iff, mem_dedup, mem_append, hfee]
    exact .inr (mem_singleton.2 rfl)

theorem finishPlain_eq : t.finishPlain x w = t.beforeFee x w >>= fun r =>
    t.addFee x w r.1 r.2 >>= fun _ => t.complete x := by
  simp only [finishPlain, beforeFee, bind_assoc, pure_bind]

/-- **What the builder has when it comes to the fee.** -/
theorem beforeFee_ok {r : (UInt64 × UInt64) × UInt64 × UInt64}
    (h : t.beforeFee x w (start w) = .ok r b) :
    ∃ all selected change extra issuedTo assembled, w.utxosMap = .ok all ∧
      t.selectedCoins (t.candidates all) = .ok selected ∧ t.checkRate = .ok () ∧
      (∀ a ∈ t.assets x selected, t.IsChange x w (t.candidates all) selected change a) ∧
      Grows (start w) (t.coins x (t.candidates all) selected) (t.paid x selected change) assembled ∧
      Issues x w (t.candidates all) (t.coins x (t.candidates all) selected) assembled
        t.issuanceRequest extra issuedTo b ∧
      r = (t.policySums x (t.candidates all) selected,
        t.feeSums x (t.candidates all) selected) := by
  obtain ⟨all, hall, h⟩ := liftExcept_bind_ok_iff.1 h
  obtain ⟨selected, hselected, h⟩ := liftExcept_bind_ok_iff.1 h
  obtain ⟨_, hrate, h⟩ := liftExcept_bind_ok_iff.1 h
  obtain ⟨feeSums, b₁, hassets, h⟩ := bind_ok_iff.1 h
  obtain ⟨change, hchange, hgrows₁, hnone, hsome⟩ := addAssets_ok assets_nodup hassets
  obtain rfl := addAssets_feeSums hnone hsome
  obtain ⟨sums, b₂, hpolicy, h⟩ := bind_ok_iff.1 h
  obtain ⟨hgrows₂, rfl⟩ := addPolicyAsset_ok hpolicy
  have hgrows := hgrows₁.trans hgrows₂
  obtain ⟨_, b₃, hissuance, h⟩ := bind_ok_iff.1 h
  obtain ⟨extra, issuedTo, hissues⟩ := addIssuance_ok hgrows hissuance
  obtain ⟨rfl, rfl⟩ := pure_ok_iff.1 h
  exact ⟨all, selected, change, extra, issuedTo, b₂, hall, hselected, hrate, hchange, hgrows,
    hissues, rfl⟩

/-- **Every successful run is a `Finished` one.** -/
theorem finishPlain_ok {p : Pset} (h : t.finishPlain x w (start w) = .ok p b') :
    Nonempty (Finished x w t p) := by
  rw [finishPlain_eq] at h
  obtain ⟨r, b₁, hbefore, h⟩ := bind_ok_iff.1 h
  obtain ⟨all, selected, change, extra, issuedTo, assembled, hall, hselected, -, hchange, hgrows,
    hissues, rfl⟩ := beforeFee_ok hbefore
  obtain ⟨_, b₂, hfee, h⟩ := bind_ok_iff.1 h
  obtain ⟨idx, draft, weight, settledTo, fee, hdraft, hweight, hsame, hsettles, hinputs, houtputs,
    hresettled⟩ := addFee_ok hfee
  obtain rfl := complete_ok h
  have hweighs : t.weighing x w (start w) = .ok weight draft :=
    bind_ok_iff.2 ⟨_, b₁, hbefore, bind_ok_iff.2 ⟨idx, draft, hdraft, hweight⟩⟩
  refine ⟨⟨all, selected, change, extra, issuedTo, settledTo, fee, assembled, b₁, draft, weight,
    hall, hselected, hchange, hgrows, hissues, hweighs, hsettles, ?_, ?_, hsame, hresettled⟩⟩
  · rw [hinputs]
  · rw [houtputs, hissues.spent.2, hgrows.outputs]
    rfl

end TxBuilder

end Phases

namespace TxBuilder.Finished

variable {x : Builder} {w : Wollet} {t : TxBuilder} {p : Pset}

/-- The coins automatic selection could draw from. -/
def utxos (f : Finished x w t p) : HashMap OutPoint WalletTxOut := t.candidates f.all

def coins (f : Finished x w t p) : List Coin := t.coins x f.utxos f.selected ++ f.extra

theorem spent (f : Finished x w t p) : p.inputs.map (·.spent) = f.coins.map (·.spent) := by
  have hsignal : (fun i : PsetInput => i.spent) ∘ t.signal = fun i => i.spent :=
    funext fun i => signal_spent i
  rw [f.inputs, map_map, hsignal, f.issues.spent.1, f.grows.spent, coins, map_append]
  rfl

theorem weighedFee_eq (f : Finished x w t p) :
    t.weighedFee x w = some (x.calculateFee f.weight t.feeRate) := by
  rw [weighedFee, f.weighs]

end TxBuilder.Finished

end Swk
