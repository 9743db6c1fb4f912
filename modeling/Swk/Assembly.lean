import Mathlib.Data.List.Forall2
import Swk.Liquidex

/-!
# What the builder assembles

Each step of the builder appends inputs that spend some coins and outputs that pay some
recipients, and changes nothing that is there already. `Grows b coins outs b'` says so, and steps
compose (`Grows.trans`). The lemmas below say of every step which coins it spends and which
outputs it adds, and what sums it returns; amounts are `u64`s, so sums are modulo `2 ^ 64`.
-/

namespace Swk

open List

structure Coin where
  outpoint : OutPoint
  secrets : TxOutSecrets
deriving DecidableEq

def WalletTxOut.coin (u : WalletTxOut) : Coin := ⟨u.outpoint, u.unblinded⟩

def ExternalUtxo.coin (u : ExternalUtxo) : Coin := ⟨u.outpoint, u.unblinded⟩

def PsetInput.spent (i : PsetInput) : OutPoint × Option AssetId × Option UInt64 :=
  (i.previousOutput, i.asset, i.amount)

/-- What an input that spends a coin says of it. -/
def Coin.spent (c : Coin) : OutPoint × Option AssetId × Option UInt64 :=
  (c.outpoint, some c.secrets.asset, some c.secrets.value)

/-- An input that spends a coin and issues nothing. -/
structure PsetInput.Spends (i : PsetInput) (c : Coin) : Prop where
  spent : i.spent = c.spent
  value : i.issuanceValueAmount = none
  keys : i.issuanceInflationKeys = none
  nonce : i.issuanceBlindingNonce = none

theorem inputFor_spends (outpoint : OutPoint) (txout : TxOut) (tx : Option Transaction)
    (unblinded : TxOutSecrets) (addInputRangeproofs : Bool) :
    (inputFor outpoint txout tx unblinded addInputRangeproofs).Spends ⟨outpoint, unblinded⟩ :=
  ⟨rfl, rfl, rfl, rfl⟩

/-- The openings of coins that are spent from index `n` on. -/
def openings (n : Nat) (coins : List Coin) : List (Nat × TxOutSecrets) :=
  (coins.zipIdx n).map fun e => (e.2, e.1.secrets)

/-- From `b` to `b'` inputs for `coins` and the outputs `outs` were added. -/
structure Grows (b : Build) (coins : List Coin) (outs : List PsetOutput) (b' : Build) : Prop where
  inputs : ∃ l, List.Forall₂ PsetInput.Spends l coins ∧ b'.pset.inputs = b.pset.inputs ++ l
  outputs : b'.pset.outputs = b.pset.outputs ++ outs
  secrets : b'.inpTxoutSec = b.inpTxoutSec.extend (openings b.pset.inputs.length coins)

section Grows

variable {b b₁ b₂ : Build} {coins coins' : List Coin} {outs outs' : List PsetOutput}

theorem Grows.refl (b : Build) : Grows b [] [] b :=
  ⟨⟨[], .nil, (append_nil _).symm⟩, (append_nil _).symm, rfl⟩

theorem Grows.length_inputs (h : Grows b coins outs b₁) :
    b₁.pset.inputs.length = b.pset.inputs.length + coins.length := by
  obtain ⟨l, hl, heq⟩ := h.inputs
  rw [heq, length_append, hl.length_eq]

theorem openings_append (n : Nat) (coins coins' : List Coin) :
    openings n (coins ++ coins') = openings n coins ++ openings (n + coins.length) coins' := by
  rw [openings, zipIdx_append, map_append]
  rfl

theorem Grows.trans (h₁ : Grows b coins outs b₁) (h₂ : Grows b₁ coins' outs' b₂) :
    Grows b (coins ++ coins') (outs ++ outs') b₂ := by
  obtain ⟨l, hl, heq⟩ := h₁.inputs
  obtain ⟨l', hl', heq'⟩ := h₂.inputs
  refine ⟨⟨l ++ l', rel_append hl hl', ?_⟩, ?_, ?_⟩
  · rw [heq', heq, append_assoc]
  · rw [h₂.outputs, h₁.outputs, append_assoc]
  · rw [h₂.secrets, h₁.secrets, h₁.length_inputs, openings_append, HashMap.extend_append]

theorem Grows.of_eq (hpset : b₁.pset = b.pset) (hsecrets : b₁.inpTxoutSec = b.inpTxoutSec) :
    Grows b [] [] b₁ := by
  refine ⟨⟨[], .nil, ?_⟩, ?_, ?_⟩
  · rw [hpset, append_nil]
  · rw [hpset, append_nil]
  · rw [hsecrets]
    rfl

theorem spends_spent {l : List PsetInput} (h : List.Forall₂ PsetInput.Spends l coins) :
    l.map (·.spent) = coins.map (·.spent) := by
  induction h with
  | nil => rfl
  | cons hic _ ih => rw [map_cons, map_cons, hic.spent, ih]

theorem Grows.spent (h : Grows b coins outs b₁) :
    b₁.pset.inputs.map (·.spent) = b.pset.inputs.map (·.spent) ++ coins.map (·.spent) := by
  obtain ⟨l, hl, heq⟩ := h.inputs
  rw [heq, map_append, spends_spent hl]

theorem Grows.outpoints (h : Grows b coins outs b₁) : b₁.pset.inputs.map (·.previousOutput) =
      b.pset.inputs.map (·.previousOutput) ++ coins.map (·.outpoint) := by
  have hspent := congrArg (map Prod.fst) h.spent
  rw [map_append, map_map, map_map, map_map] at hspent
  exact hspent

theorem Grows.same_inputs (h : Grows b [] outs b₁) : b₁.pset.inputs = b.pset.inputs := by
  obtain ⟨l, hl, heq⟩ := h.inputs
  rw [heq, forall₂_nil_right_iff.1 hl, append_nil]

end Grows

/-! ## Sums -/

def total {α : Type} (value : α → UInt64) (l : List α) : Nat := (l.map fun a => (value a).toNat).sum

theorem total_append {α : Type} (value : α → UInt64) (l l' : List α) :
    total value (l ++ l') = total value l + total value l' := by
  simp [total]

theorem total_cons {α : Type} (value : α → UInt64) (a : α) (l : List α) :
    total value (a :: l) = (value a).toNat + total value l := by
  simp [total]

/-- The coins that are added until they cover an amount. -/
def takenUntil (wantAll : Bool) (satoshiOut : UInt64) : List WalletTxOut → UInt64 → List WalletTxOut
  | [], _ => []
  | u :: rest, satoshiIn =>
    if !wantAll && satoshiIn + u.unblinded.value ≥ satoshiOut then [u]
    else u :: takenUntil wantAll satoshiOut rest (satoshiIn + u.unblinded.value)

theorem takenUntil_isPrefix (wantAll : Bool) (satoshiOut : UInt64) (l : List WalletTxOut)
    (satoshiIn : UInt64) : takenUntil wantAll satoshiOut l satoshiIn <+: l := by
  induction l generalizing satoshiIn with
  | nil => exact nil_prefix
  | cons u rest ih =>
    unfold takenUntil
    split
    · exact prefix_iff_eq_append.2 rfl
    · exact cons_prefix_cons.2 ⟨rfl, ih _⟩

/-! ## Steps -/

section Steps

variable {x : Builder} {w : Wollet} {t : TxBuilder} {b b' : Build}

variable {α β : Type} {init : UInt64} {idx : Nat} {proofs isChange : Bool} {u : Unit}

theorem foldlM_grows {f : α → BuildM β} (value : α → UInt64) (coins : α → List Coin)
    (outs : α → List PsetOutput) {l : List α} {r : UInt64}
    (hf : ∀ a b₁ c b₂, f a b₁ = .ok c b₂ → Grows b₁ (coins a) (outs a) b₂)
    (h : (l.foldlM (fun s a => do let _ ← f a; pure (s + value a)) init : BuildM UInt64) b =
      .ok r b') :
    Grows b (l.flatMap coins) (l.flatMap outs) b' ∧ r = init + UInt64.ofNat (total value l) := by
  induction l generalizing b init with
  | nil =>
    obtain ⟨rfl, rfl⟩ := pure_ok_iff.1 h
    exact ⟨.refl _, (UInt64.add_zero init).symm⟩
  | cons a l ih =>
    rw [foldlM_cons] at h
    obtain ⟨s, b₁, hs, hrest⟩ := bind_ok_iff.1 h
    obtain ⟨c, b₂, hadd, hpure⟩ := bind_ok_iff.1 hs
    obtain ⟨rfl, rfl⟩ := pure_ok_iff.1 hpure
    obtain ⟨hgrows, hsum⟩ := ih hrest
    refine ⟨?_, ?_⟩
    · rw [flatMap_cons, flatMap_cons]
      exact (hf a b c b₂ hadd).trans hgrows
    · rw [hsum, total_cons, UInt64.ofNat_add, UInt64.ofNat_toNat, UInt64.add_assoc]

theorem addInputInner_ok {outpoint : OutPoint} {txout : TxOut} {tx : Option Transaction}
    {unblinded : TxOutSecrets} {weight : Nat} {allow : Bool}
    (h : addInputInner x outpoint txout tx unblinded weight allow proofs b = .ok idx b') :
    idx = b.pset.inputs.length ∧ Grows b [⟨outpoint, unblinded⟩] [] b' := by
  replace h := get_bind_ok_iff.1 h
  obtain ⟨-, h⟩ := ensureElse_bind_ok_iff.1 h
  obtain ⟨_, -, h⟩ := liftExcept_bind_ok_iff.1 h
  obtain ⟨-, h⟩ := ensureElse_bind_ok_iff.1 h
  replace h := set_bind_ok_iff.1 h
  obtain ⟨rfl, rfl⟩ := pure_ok_iff.1 h
  refine ⟨rfl, ⟨⟨_, .cons (inputFor_spends _ _ _ _ _) .nil, rfl⟩, ?_, rfl⟩⟩
  exact (append_nil _).symm

theorem addInput_ok {utxo : WalletTxOut} (h : w.addInput x proofs utxo b = .ok idx b') :
    idx = b.pset.inputs.length ∧ Grows b [utxo.coin] [] b' := by
  obtain ⟨tx, -, h⟩ := liftExcept_bind_ok_iff.1 h
  obtain ⟨txout, -, h⟩ := liftExcept_bind_ok_iff.1 h
  exact addInputInner_ok h

theorem pushOutput_ok {o : PsetOutput} (h : pushOutput o b = .ok u b') :
    Grows b [] [o] b' := by
  obtain rfl := modify_ok_iff.1 h
  exact ⟨⟨[], .nil, (append_nil _).symm⟩, rfl, rfl⟩

theorem addRecipients_ok {l : List Recipient} {r : UInt64} (h : addRecipients l b = .ok r b') :
    Grows b [] (l.map (·.output)) b' ∧ r = UInt64.ofNat (total (·.satoshi) l) := by
  obtain ⟨hgrows, hsum⟩ := foldlM_grows Recipient.satoshi (fun _ => []) (fun a => [a.output])
    (fun _ _ _ _ hadd => pushOutput_ok hadd) h
  rw [flatMap_eq_nil_iff.2 fun _ _ => rfl, ← map_eq_flatMap] at hgrows
  exact ⟨hgrows, hsum.trans (UInt64.zero_add _)⟩

def Coin.value (c : Coin) : UInt64 := c.secrets.value

theorem total_coins (coin : α → Coin) (l : List α) :
    total Coin.value (l.map coin) = total (fun a => (coin a).value) l := by
  simp only [total, map_map]
  rfl

theorem foldlM_inputs {f : α → BuildM β} (coin : α → Coin) {l : List α} {r : UInt64}
    (hf : ∀ a b₁ c b₂, f a b₁ = .ok c b₂ → Grows b₁ [coin a] [] b₂)
    (h : (l.foldlM (fun s a => do let _ ← f a; pure (s + (coin a).value)) init : BuildM UInt64) b =
      .ok r b') :
    Grows b (l.map coin) [] b' ∧ r = init + UInt64.ofNat (total Coin.value (l.map coin)) := by
  obtain ⟨hgrows, hsum⟩ := foldlM_grows (fun a => (coin a).value) (fun a => [coin a])
    (fun _ => []) hf h
  rw [flatMap_eq_nil_iff.2 fun _ _ => rfl, ← map_eq_flatMap] at hgrows
  rw [total_coins]
  exact ⟨hgrows, hsum⟩

namespace TxBuilder

def externalsOf (t : TxBuilder) (asset : AssetId) : List Coin :=
  (t.externalUtxos.filter fun u => u.unblinded.asset = asset).map (·.coin)

theorem addExternals_ok {asset : AssetId} {r : UInt64} (h : t.addExternals x asset b = .ok r b') :
    Grows b (t.externalsOf asset) [] b' ∧
      r = UInt64.ofNat (total Coin.value (t.externalsOf asset)) := by
  obtain ⟨hgrows, hsum⟩ := foldlM_inputs ExternalUtxo.coin
    (fun _ _ _ _ hadd => (addInputInner_ok hadd).2) h
  exact ⟨hgrows, hsum.trans (UInt64.zero_add _)⟩

variable {l : List WalletTxOut} {satoshiIn satoshiOut : UInt64}

/-- What adding a coin maintains, adding coins does. -/
theorem addCoins_maintains {I : Build → Prop}
    (h : ∀ proofs utxo, Maintains I (w.addInput x proofs utxo)) (l : List WalletTxOut)
    (satoshiIn : UInt64) : Maintains I (t.addCoins x w l satoshiIn) :=
  Maintains.foldlM (fun _ _ => (h _ _).bind fun _ => .pure _) l satoshiIn

theorem addCoinsUntil_maintains {I : Build → Prop}
    (h : ∀ proofs utxo, Maintains I (w.addInput x proofs utxo)) (wantAll : Bool)
    (satoshiOut : UInt64) (l : List WalletTxOut) (satoshiIn : UInt64) :
    Maintains I (t.addCoinsUntil x w wantAll satoshiOut l satoshiIn) := by
  induction l generalizing satoshiIn with
  | nil => exact .pure _
  | cons u rest ih => exact (h _ _).bind fun _ => .ite (.pure _) (ih _)

theorem addCoins_ok {r : UInt64} (h : t.addCoins x w l satoshiIn b = .ok r b') :
    Grows b (l.map (·.coin)) [] b' ∧
      r = satoshiIn + UInt64.ofNat (total Coin.value (l.map (·.coin))) :=
  foldlM_inputs WalletTxOut.coin (fun _ _ _ _ hadd => (addInput_ok hadd).2) h

theorem addCoinsUntil_ok {wantAll : Bool} {r : UInt64}
    (h : t.addCoinsUntil x w wantAll satoshiOut l satoshiIn b = .ok r b') :
    Grows b ((takenUntil wantAll satoshiOut l satoshiIn).map (·.coin)) [] b' ∧
      r = satoshiIn + UInt64.ofNat
        (total Coin.value ((takenUntil wantAll satoshiOut l satoshiIn).map (·.coin))) := by
  induction l generalizing satoshiIn b with
  | nil =>
    obtain ⟨rfl, rfl⟩ := pure_ok_iff.1 h
    exact ⟨.refl _, (UInt64.add_zero _).symm⟩
  | cons u rest ih =>
    rw [addCoinsUntil, bind_ok_iff] at h
    obtain ⟨idx, b₁, hadd, h⟩ := h
    have hfirst := (addInput_ok hadd).2
    unfold takenUntil
    split at h
    · rename_i hstop
      rw [if_pos hstop]
      obtain ⟨rfl, rfl⟩ := pure_ok_iff.1 h
      refine ⟨hfirst, ?_⟩
      simp [total, WalletTxOut.coin, Coin.value]
    · rename_i hstop
      rw [if_neg hstop]
      obtain ⟨hgrows, hsum⟩ := ih h
      refine ⟨hfirst.trans hgrows, ?_⟩
      rw [hsum, map_cons, total_cons, UInt64.ofNat_add, UInt64.ofNat_toNat, ← UInt64.add_assoc]
      rfl

/-! ### One asset -/

def recipientsOf (t : TxBuilder) (asset : AssetId) : List Recipient :=
  t.recipients.filter fun a => a.asset = asset

def requested (t : TxBuilder) (asset : AssetId) : Nat := total (·.satoshi) (t.recipientsOf asset)

/-- The coins of the wallet that are drawn for an asset, given what goes out and what the external
utxos bring. -/
def drawnFor (x : Builder) (t : TxBuilder) (utxos : HashMap OutPoint WalletTxOut)
    (selected : List WalletTxOut) (asset : AssetId) (satoshiOut satoshiIn : UInt64) :
    List WalletTxOut :=
  if t.selectedUtxos.isSome then selected.filter fun u => u.unblinded.asset = asset
  else if satoshiIn < satoshiOut || t.isFeeAsset asset then
    takenUntil (t.isFeeAsset asset) satoshiOut (coinsOf x utxos asset) satoshiIn
  else []

/-- The coins of the wallet that are drawn for an asset. -/
def drawn (x : Builder) (t : TxBuilder) (utxos : HashMap OutPoint WalletTxOut)
    (selected : List WalletTxOut) (asset : AssetId) : List WalletTxOut :=
  t.drawnFor x utxos selected asset (UInt64.ofNat (t.requested asset))
    (UInt64.ofNat (total Coin.value (t.externalsOf asset)))

def coinsFor (x : Builder) (t : TxBuilder) (utxos : HashMap OutPoint WalletTxOut)
    (selected : List WalletTxOut) (asset : AssetId) : List Coin :=
  t.externalsOf asset ++ (t.drawn x utxos selected asset).map (·.coin)

variable {utxos : HashMap OutPoint WalletTxOut} {selected : List WalletTxOut}

theorem drawCoins_ok {asset : AssetId} {r : UInt64}
    (h : t.drawCoins x w utxos selected asset satoshiOut satoshiIn b = .ok r b') :
    Grows b ((t.drawnFor x utxos selected asset satoshiOut satoshiIn).map (·.coin)) [] b' ∧
      r = satoshiIn + UInt64.ofNat (total Coin.value
        ((t.drawnFor x utxos selected asset satoshiOut satoshiIn).map (·.coin))) := by
  unfold drawCoins at h
  unfold drawnFor
  by_cases hselected : t.selectedUtxos.isSome = true
  · rw [if_pos hselected] at h ⊢
    exact addCoins_ok h
  · rw [if_neg hselected] at h ⊢
    by_cases hneeded : (decide (satoshiIn < satoshiOut) || t.isFeeAsset asset) = true
    · rw [if_pos hneeded] at h ⊢
      exact addCoinsUntil_ok h
    · rw [if_neg hneeded] at h ⊢
      obtain ⟨rfl, rfl⟩ := pure_ok_iff.1 h
      exact ⟨.refl _, (UInt64.add_zero _).symm⟩

theorem addAsset_ok {asset : AssetId} {sums : UInt64 × UInt64}
    (h : t.addAsset x w utxos selected asset b = .ok sums b') :
    Grows b (t.coinsFor x utxos selected asset) ((t.recipientsOf asset).map (·.output)) b' ∧
      sums = (UInt64.ofNat (total Coin.value (t.coinsFor x utxos selected asset)),
        UInt64.ofNat (t.requested asset)) := by
  obtain ⟨satoshiOut, b₁, hout, h⟩ := bind_ok_iff.1 h
  obtain ⟨hgrows₁, rfl⟩ := addRecipients_ok hout
  obtain ⟨satoshiIn, b₂, hext, h⟩ := bind_ok_iff.1 h
  obtain ⟨hgrows₂, rfl⟩ := addExternals_ok hext
  obtain ⟨satoshiIn, b₃, hdraw, h⟩ := bind_ok_iff.1 h
  obtain ⟨rfl, rfl⟩ := pure_ok_iff.1 h
  obtain ⟨hgrows₃, rfl⟩ := drawCoins_ok hdraw
  refine ⟨?_, ?_⟩
  · have hgrows := (hgrows₁.trans hgrows₂).trans hgrows₃
    rw [append_nil, append_nil, nil_append] at hgrows
    exact hgrows
  · rw [coinsFor, total_append, UInt64.ofNat_add]
    rfl

/-! ### Change -/

end TxBuilder

def IsOwn (x : Builder) (w : Wollet) (isChange : Bool) (satoshi : UInt64) (asset : AssetId)
    (r : Recipient) : Prop :=
  ∃ n n', w.addresseeInner x satoshi asset n isChange = .ok (r, n')

variable {satoshi : UInt64} {asset : AssetId} {r : Recipient}

/-- Which address of the wallet is taken does not depend on the amount. -/
theorem IsOwn.fromAddress (h : IsOwn x w isChange satoshi asset r) :
    ∃ address, r = .fromAddress satoshi address asset ∧
      ∀ amount, IsOwn x w isChange amount asset (.fromAddress amount address asset) := by
  obtain ⟨n, n', h⟩ := h
  simp only [IsOwn, Wollet.addresseeInner] at h ⊢
  by_cases hamp : x.env.descriptor.isAmp0 = true
  · simp only [if_pos hamp] at h ⊢
    obtain ⟨address, haddress, h⟩ := except_bind_ok_iff.1 h
    cases h
    exact ⟨address, rfl, fun amount => ⟨n, _, except_bind_ok_iff.2 ⟨address, haddress, rfl⟩⟩⟩
  · simp only [if_neg hamp] at h ⊢
    obtain ⟨address, haddress, h⟩ := except_bind_ok_iff.1 h
    split at h
    all_goals
      cases h
      refine ⟨_, rfl, fun amount => ⟨n, n + 1, except_bind_ok_iff.2 ⟨address, haddress, ?_⟩⟩⟩
      simp only [*]
      rfl

theorem IsOwn.amount (h : IsOwn x w isChange satoshi asset r) :
    r.satoshi = satoshi ∧ r.asset = asset := by
  obtain ⟨address, rfl, -⟩ := h.fromAddress
  exact ⟨rfl, rfl⟩

theorem pickAddressee_ok (index : Build → UInt32) (setIndex : Build → UInt32 → Build)
    (hgrows : ∀ b n, Grows b [] [] (setIndex b n)) (h : (do
      let b ← get
      let r ← liftExcept (w.addresseeInner x satoshi asset (index b) isChange)
      set (setIndex b r.2)
      pure r.1 : BuildM Recipient) b = .ok r b') :
    IsOwn x w isChange satoshi asset r ∧ Grows b [] [] b' := by
  replace h := get_bind_ok_iff.1 h
  obtain ⟨a, hown, h⟩ := liftExcept_bind_ok_iff.1 h
  replace h := set_bind_ok_iff.1 h
  obtain ⟨rfl, rfl⟩ := pure_ok_iff.1 h
  exact ⟨⟨_, _, hown⟩, hgrows _ _⟩

theorem addresseeChange_ok (h : w.addresseeChange x satoshi asset b = .ok r b') :
    IsOwn x w true satoshi asset r ∧ Grows b [] [] b' :=
  pickAddressee_ok (·.lastUnusedInternal) (fun b n => { b with lastUnusedInternal := n })
    (fun _ _ => .of_eq rfl rfl) h

theorem addresseeExternal_ok (h : w.addresseeExternal x satoshi asset b = .ok r b') :
    IsOwn x w false satoshi asset r ∧ Grows b [] [] b' :=
  pickAddressee_ok (·.lastUnusedExternal) (fun b n => { b with lastUnusedExternal := n })
    (fun _ _ => .of_eq rfl rfl) h

theorem addChange_ok (h : addChange x w satoshi asset b = .ok u b') :
    ∃ r, IsOwn x w true satoshi asset r ∧ Grows b [] [r.output] b' := by
  obtain ⟨r, b₁, hr, h⟩ := bind_ok_iff.1 h
  obtain ⟨hown, hgrows⟩ := addresseeChange_ok hr
  exact ⟨r, hown, hgrows.trans (pushOutput_ok h)⟩

/-- The change of an asset: what comes in and does not go out. -/
def IsChangeOf (x : Builder) (w : Wollet) (sums : UInt64 × UInt64) (asset : AssetId) :
    Option Recipient → Prop
  | some r => sums.2 < sums.1 ∧ IsOwn x w true (sums.1 - sums.2) asset r
  | none => sums.1 = sums.2

theorem addAssetChange_ok {sums : UInt64 × UInt64}
    (h : TxBuilder.addAssetChange x w sums asset b = .ok u b') :
    ∃ change, IsChangeOf x w sums asset change ∧ Grows b [] (change.toList.map (·.output)) b' := by
  obtain ⟨_, b₁, hrun, h⟩ := bind_ok_iff.1 h
  obtain ⟨henough, rfl⟩ := ensureElse_ok_iff.1 h
  have hle : ¬ sums.1 < sums.2 := by simpa using henough
  rcases runIf_ok_iff.1 hrun with ⟨hmore, hchange⟩ | ⟨hnone, rfl⟩
  · obtain ⟨r, hown, hgrows⟩ := addChange_ok hchange
    exact ⟨some r, ⟨of_decide_eq_true hmore, hown⟩, hgrows⟩
  · refine ⟨none, ?_, .refl _⟩
    have hnot : ¬ sums.2 < sums.1 := of_decide_eq_false hnone
    exact UInt64.le_antisymm (UInt64.not_lt.1 hnot) (UInt64.not_lt.1 hle)

namespace TxBuilder

variable {utxos : HashMap OutPoint WalletTxOut} {selected : List WalletTxOut}

/-- The sums of an asset: what is spent of it and what its recipients get. -/
def sumsOf (x : Builder) (t : TxBuilder) (utxos : HashMap OutPoint WalletTxOut)
    (selected : List WalletTxOut) (asset : AssetId) : UInt64 × UInt64 :=
  (UInt64.ofNat (total Coin.value (t.coinsFor x utxos selected asset)),
    UInt64.ofNat (t.requested asset))

/-- The outputs for an asset: its recipients, and its change. -/
def outputsFor (t : TxBuilder) (change : AssetId → Option Recipient) (asset : AssetId) :
    List PsetOutput :=
  (t.recipientsOf asset ++ (change asset).toList).map (·.output)

/-- The change of every asset but the fee asset, which is left for later. -/
def IsChange (x : Builder) (w : Wollet) (t : TxBuilder) (utxos : HashMap OutPoint WalletTxOut)
    (selected : List WalletTxOut) (change : AssetId → Option Recipient) (asset : AssetId) : Prop :=
  if t.isFeeAsset asset then change asset = none
  else IsChangeOf x w (t.sumsOf x utxos selected asset) asset (change asset)

theorem isFeeAsset_iff {asset : AssetId} :
    t.isFeeAsset asset = true ↔ ∃ rate, t.feeInAsset = some (asset, rate) := by
  unfold isFeeAsset
  cases hfee : t.feeInAsset with
  | none => simp
  | some e =>
    obtain ⟨a, rate⟩ := e
    simp [eq_comm]

variable {a a' : AssetId} {change : AssetId → Option Recipient} {assets : List AssetId}

theorem isFeeAsset_unique (h : t.isFeeAsset a = true) (h' : t.isFeeAsset a' = true) : a = a' := by
  obtain ⟨rate, hrate⟩ := isFeeAsset_iff.1 h
  obtain ⟨rate', hrate'⟩ := isFeeAsset_iff.1 h'
  rw [hrate] at hrate'
  cases hrate'
  rfl

theorem outputsFor_update (ha : a ∉ assets) (c : Option Recipient) :
    assets.flatMap (t.outputsFor (Function.update change a c)) =
      assets.flatMap (t.outputsFor change) := by
  refine flatMap_congr fun a' ha' => ?_
  have hne : a' ≠ a := fun h => ha (h ▸ ha')
  rw [outputsFor, Function.update_of_ne hne, outputsFor]

theorem IsChange.update (hne : a' ≠ a) (c : Option Recipient)
    (h : t.IsChange x w utxos selected change a') :
    t.IsChange x w utxos selected (Function.update change a c) a' := by
  unfold IsChange at h ⊢
  rwa [Function.update_of_ne hne]

/-- **The loop over the assets** spends the coins of each, pays its recipients and returns its
change. The sums of the fee asset are what is returned. -/
theorem addAssets_ok {fee r : UInt64 × UInt64} (hnodup : assets.Nodup)
    (h : t.addAssets x w utxos selected assets fee b = .ok r b') :
    ∃ change, (∀ a ∈ assets, t.IsChange x w utxos selected change a) ∧
      Grows b (assets.flatMap (t.coinsFor x utxos selected)) (assets.flatMap (t.outputsFor change))
        b' ∧
      ((∀ a ∈ assets, t.isFeeAsset a = false) → r = fee) ∧
      ∀ a ∈ assets, t.isFeeAsset a = true → r = t.sumsOf x utxos selected a := by
  induction assets generalizing b fee with
  | nil =>
    obtain ⟨rfl, rfl⟩ := pure_ok_iff.1 h
    exact ⟨fun _ => none, fun a ha => absurd ha not_mem_nil, .refl _, fun _ => rfl,
      fun a ha => absurd ha not_mem_nil⟩
  | cons a rest ih =>
    obtain ⟨hnot, hrest⟩ := nodup_cons.1 hnodup
    rw [addAssets, bind_ok_iff] at h
    obtain ⟨sums, b₁, hasset, h⟩ := h
    obtain ⟨hgrows, rfl⟩ := addAsset_ok hasset
    -- what the asset itself contributes, with its change `c`
    have hassemble {b₂ : Build} {fee' : UInt64 × UInt64} (c : Option Recipient)
        (hown : if t.isFeeAsset a then c = none
          else IsChangeOf x w (t.sumsOf x utxos selected a) a c)
        (hchange : Grows b₁ [] (c.toList.map (·.output)) b₂)
        (hloop : t.addAssets x w utxos selected rest fee' b₂ = .ok r b')
        (hfee : t.isFeeAsset a = true → fee' = t.sumsOf x utxos selected a)
        (hother : t.isFeeAsset a = false → fee' = fee) :
        ∃ change, (∀ a' ∈ a :: rest, t.IsChange x w utxos selected change a') ∧
          Grows b ((a :: rest).flatMap (t.coinsFor x utxos selected))
            ((a :: rest).flatMap (t.outputsFor change)) b' ∧
          ((∀ a' ∈ a :: rest, t.isFeeAsset a' = false) → r = fee) ∧
          ∀ a' ∈ a :: rest, t.isFeeAsset a' = true → r = t.sumsOf x utxos selected a' := by
      obtain ⟨change, hrestChange, hrestGrows, hnone, hsome⟩ := ih hrest hloop
      refine ⟨Function.update change a c, ?_, ?_, ?_, ?_⟩
      · intro a' ha'
        rcases mem_cons.1 ha' with rfl | ha'
        · unfold IsChange
          rwa [Function.update_self]
        · have hne : a' ≠ a := fun heq => hnot (heq ▸ ha')
          exact (hrestChange a' ha').update hne c
      · have hall := (hgrows.trans hchange).trans hrestGrows
        rw [append_nil, ← map_append] at hall
        rw [flatMap_cons, flatMap_cons, outputsFor_update hnot, outputsFor, Function.update_self]
        exact hall
      · intro hnot'
        rw [hnone fun a' ha' => hnot' a' (mem_cons_of_mem _ ha'), hother (hnot' a mem_cons_self)]
      · intro a' ha' hfee'
        rcases mem_cons.1 ha' with rfl | ha'
        · rw [hnone fun c hc => ?_, hfee hfee']
          by_contra hc'
          rw [Bool.not_eq_false] at hc'
          exact hnot (isFeeAsset_unique hfee' hc' ▸ hc)
        · exact hsome a' ha' hfee'
    split at h
    · rename_i hfee
      refine hassemble none ?_ (.refl _) h (fun _ => rfl) (fun hno => ?_)
      · rw [if_pos hfee]
      · rw [hfee] at hno
        cases hno
    · rename_i hfee
      obtain ⟨_, b₂, hadd, h⟩ := bind_ok_iff.1 h
      obtain ⟨c, hc, hgrows₂⟩ := addAssetChange_ok hadd
      refine hassemble c ?_ hgrows₂ h (fun hyes => absurd hyes hfee) (fun _ => rfl)
      rw [if_neg hfee]
      exact hc

end TxBuilder

end Steps

end Swk
