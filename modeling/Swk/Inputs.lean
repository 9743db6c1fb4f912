import Swk.Taking

/-!
# No input twice

Inputs come from five places: external utxos, selected coins, coins drawn automatically, the token
of a reissuance and the proposal of a LiquiDEX maker. Coins of the wallet come from one map, keyed
by outpoint and without the external utxos, so these do not meet; each coin has one asset, so the
loops over the assets do not meet either. What is left are repetitions in the lists the caller
gives, which nothing removes, and a proposal that spends a coin of the taker.
-/

namespace Swk

open List

/-! ## Coins of the wallet -/

/-- The coins of a map are at their own outpoints. -/
def AtOutpoints (utxos : HashMap OutPoint WalletTxOut) : Prop :=
  ∀ o u, utxos.lookup o = some u → u.outpoint = o

variable {w : Wollet} {all : HashMap OutPoint WalletTxOut} {u : WalletTxOut} {t : TxBuilder}
  {utxos : HashMap OutPoint WalletTxOut}

theorem utxosMap_atOutpoints (h : w.utxosMap = .ok all) : AtOutpoints all := by
  obtain ⟨l, -, h⟩ := except_bind_ok_iff.1 h
  cases h
  intro o u hu
  rw [HashMap.lookup_ofPairs] at hu
  obtain ⟨u', -, heq⟩ := mem_map.1 (HashMap.mem_of_lastValue hu)
  cases heq
  rfl

theorem utxosMap_script (hall : w.utxosMap = .ok all) (hu : all.lookup u.outpoint = some u) :
    ∃ script ∈ w.cache.paths, w.cache.unspent.lookup u.outpoint = some script := by
  obtain ⟨l, hl, hall⟩ := except_bind_ok_iff.1 hall
  cases hall
  rw [HashMap.lookup_ofPairs] at hu
  obtain ⟨v, hv, heq⟩ := mem_map.1 (HashMap.mem_of_lastValue hu)
  obtain ⟨-, rfl⟩ := Prod.mk.inj heq
  obtain ⟨⟨o, script⟩, he, hutxo⟩ := mapM_ok_mem hl v hv
  obtain ⟨houtpoint, -, -, hindex, -⟩ := Cache.utxoAt_ok hutxo
  rw [houtpoint]
  exact ⟨script, Cache.mem_paths_of_index hindex, HashMap.mem_toPairs.1 he⟩

theorem lookup_foldl_erase {α : Type} (key : α → OutPoint) (l : List α)
    (m : HashMap OutPoint WalletTxOut) (o : OutPoint) :
    (l.foldl (fun m a => m.erase (key a)) m).lookup o =
      if o ∈ l.map key then none else m.lookup o := by
  induction l generalizing m with
  | nil => simp
  | cons a l ih =>
    rw [foldl_cons, ih]
    by_cases ho : o = key a
    · subst ho
      simp
    · rw [AList.lookup_erase_ne ho]
      simp [ho]

theorem lookup_candidates {o : OutPoint} : (t.candidates all).lookup o = some u ↔
      o ∉ t.avoidUtxos ∧ o ∉ t.externalUtxos.map (·.outpoint) ∧ all.lookup o = some u := by
  unfold TxBuilder.candidates
  rw [lookup_foldl_erase (fun o => o), lookup_foldl_erase ExternalUtxo.outpoint, map_id']
  by_cases havoid : o ∈ t.avoidUtxos
  · simp [havoid]
  · by_cases hext : o ∈ t.externalUtxos.map (·.outpoint) <;> simp [havoid, hext]

theorem candidates_atOutpoints (h : AtOutpoints all) : AtOutpoints (t.candidates all) :=
  fun o u hu => h o u (lookup_candidates.1 hu).2.2

theorem values_outpoints (h : AtOutpoints utxos) : utxos.values.map (·.outpoint) = utxos.keys := by
  rw [HashMap.values, map_map]
  refine map_congr_left fun e he => ?_
  exact h e.1 e.2 (HashMap.mem_entries_iff.1 he)

theorem values_nodup (h : AtOutpoints utxos) : (utxos.values.map (·.outpoint)).Nodup := by
  rw [values_outpoints h]
  exact utxos.keys_nodup

theorem ordered_nodup (x : Builder) (h : AtOutpoints utxos) :
    ((x.order.coins utxos.values).map (·.outpoint)).Nodup :=
  ((x.order.coins_perm _).map _).nodup_iff.2 (values_nodup h)

theorem mem_values_atOutpoints (h : AtOutpoints utxos)
    (hu : u ∈ utxos.values) : utxos.lookup u.outpoint = some u := by
  obtain ⟨o, ho⟩ := HashMap.mem_values.1 hu
  rw [h o u ho, ho]

theorem lookup_or_missing {o : OutPoint} (h : (match utxos.lookup o with
      | some utxo => .ok utxo
      | none => .error (.missingWalletUtxo o)) = (.ok u : Except Error WalletTxOut)) :
    utxos.lookup o = some u := by
  split at h
  · rename_i hlookup
    cases h
    exact hlookup
  · cases h

theorem selectedCoins_ok {selected : List WalletTxOut} (hat : AtOutpoints utxos)
    (h : t.selectedCoins utxos = .ok selected) :
    selected.map (·.outpoint) = t.selectedUtxos.getD [] ∧
      ∀ u ∈ selected, utxos.lookup u.outpoint = some u := by
  refine ⟨mapM_ok_map (fun o u hu => hat o u (lookup_or_missing hu)) h, fun u hu => ?_⟩
  obtain ⟨o, -, ho⟩ := mapM_ok_mem h u hu
  have hlookup : utxos.lookup o = some u := lookup_or_missing ho
  rw [hat o u hlookup, hlookup]

/-! ## What a run spends -/

theorem mem_coinsOf {x : Builder} {asset : AssetId} :
    u ∈ coinsOf x utxos asset ↔ u ∈ utxos.values ∧ u.unblinded.asset = asset := by
  rw [coinsOf, mem_filter, (x.order.coins_perm _).mem_iff, decide_eq_true_iff]

theorem Issues.token {x : Builder} {coins extra : List Coin} {b b' : Build}
    {request : IssuanceRequest} {recipients : List Recipient}
    (h : Issues x w utxos coins b request extra recipients b') (hne : extra ≠ []) :
    ∃ u ∈ utxos.values, extra = [u.coin] ∧ ∀ c ∈ coins, c.secrets.asset ≠ u.unblinded.asset := by
  cases h with
  | none => exact absurd rfl hne
  | issuance => exact absurd rfl hne
  | reissuance _ _ hinput =>
    cases hinput with
    | found => exact absurd rfl hne
    | added u hu hnone =>
      obtain ⟨hvalue, hasset⟩ := mem_coinsOf.1 hu
      exact ⟨u, hvalue, rfl, hasset ▸ hnone⟩

namespace TxBuilder

variable {x : Builder} {w : Wollet} {t : TxBuilder} {utxos : HashMap OutPoint WalletTxOut}
variable {selected : List WalletTxOut}

def allAssets (x : Builder) (t : TxBuilder) (selected : List WalletTxOut) : List AssetId :=
  t.assets x selected ++ [t.policyAsset]

theorem isFeeAsset_ne_policy {a : AssetId} (h : t.isFeeAsset a = true) : a ≠ t.policyAsset := by
  obtain ⟨rate, hrate⟩ := isFeeAsset_iff.1 h
  have hne := (Option.filter_eq_some_iff.1 hrate).2
  exact of_decide_eq_true hne

theorem mem_assets {a : AssetId} : a ∈ t.assets x selected ↔ a ≠ t.policyAsset ∧
      (a ∈ t.recipients.map (·.asset) ∨ a ∈ t.externalUtxos.map (·.unblinded.asset) ∨
        a ∈ selected.map (·.unblinded.asset) ∨ t.isFeeAsset a = true) := by
  have hfee : a ∈ t.feeInAsset.toList.map (·.1) ↔ t.isFeeAsset a = true := by
    rw [isFeeAsset_iff]
    cases t.feeInAsset with
    | none => simp
    | some e => simp [Prod.ext_iff, eq_comm]
  have hpolicy := isFeeAsset_ne_policy (t := t) (a := a)
  rw [assets, (x.order.assets_perm _).mem_iff, mem_dedup, mem_append, mem_filter,
    mem_append, mem_append, hfee, decide_eq_true_iff]
  tauto

theorem mem_allAssets {a : AssetId}
    (h : a ∈ t.recipients.map (·.asset) ∨ a ∈ t.externalUtxos.map (·.unblinded.asset) ∨
      a ∈ selected.map (·.unblinded.asset)) : a ∈ t.allAssets x selected := by
  rw [allAssets, mem_append, mem_singleton, mem_assets]
  tauto

theorem allAssets_nodup (x : Builder) (t : TxBuilder) (selected : List WalletTxOut) :
    (t.allAssets x selected).Nodup := by
  refine nodup_append.2 ⟨assets_nodup, nodup_singleton _, ?_⟩
  intro a ha a' ha'
  rw [mem_singleton.1 ha']
  exact (mem_assets.1 ha).1

def allDrawn (x : Builder) (t : TxBuilder) (utxos : HashMap OutPoint WalletTxOut)
    (selected : List WalletTxOut) : List WalletTxOut :=
  (t.assets x selected).flatMap (t.drawn x utxos selected) ++ t.policyCoins x utxos selected

theorem externalsOf_perm :
    ((t.allAssets x selected).flatMap t.externalsOf).Perm (t.externalUtxos.map (·.coin)) := by
  have hperm := (perm_flatMap_filter (fun u : ExternalUtxo => u.unblinded.asset)
    (allAssets_nodup x t selected) fun u hu => mem_allAssets (.inr (.inl (mem_map_of_mem hu)))).map
      (·.coin)
  rwa [map_flatMap] at hperm

theorem recipientsOf_perm (x : Builder) (t : TxBuilder) (selected : List WalletTxOut) :
    ((t.allAssets x selected).flatMap t.recipientsOf).Perm t.recipients :=
  perm_flatMap_filter (fun r : Recipient => r.asset) (allAssets_nodup x t selected)
    fun _ hr => mem_allAssets (.inl (mem_map_of_mem hr))

theorem paid_eq_map (change : AssetId → Option Recipient) : t.paid x selected change =
    ((t.assets x selected).flatMap (fun b => t.recipientsOf b ++ (change b).toList) ++
      t.recipientsOf t.policyAsset).map (·.output) := by
  rw [paid, map_append, map_flatMap]
  rfl

theorem Finished.fee_last {p : Pset} (f : Finished x w t p) : ∃ (l : List Recipient) (q : UInt64),
    p.outputs = l.map (·.output) ++ [feeOutput q (t.feePaidIn x)] := by
  refine ⟨(t.assets x f.selected).flatMap (fun b => t.recipientsOf b ++ (f.change b).toList) ++
    t.recipientsOf t.policyAsset ++ f.issuedTo ++ f.settledTo, f.fee, ?_⟩
  rw [f.outputs, paid_eq_map]
  simp only [map_append, append_assoc]

/-- **The external utxos are all spent**, and coins of the wallet with them. -/
theorem coins_perm : (t.coins x utxos selected).Perm
      (t.externalUtxos.map (·.coin) ++ (t.allDrawn x utxos selected).map (·.coin)) := by
  have hassets := (flatMap_append_perm (t.assets x selected) t.externalsOf
    fun a => (t.drawn x utxos selected a).map (·.coin)).symm
  have hshuffle (k l m n : List Coin) : ((k ++ l) ++ (m ++ n)).Perm ((k ++ m) ++ (l ++ n)) := by
    rw [append_assoc, append_assoc]
    exact (perm_append_comm_assoc l m n).append_left k
  have hexternals :
      ((t.assets x selected).flatMap t.externalsOf ++ t.externalsOf t.policyAsset).Perm
        (t.externalUtxos.map (·.coin)) := by
    have hperm : ((t.allAssets x selected).flatMap t.externalsOf).Perm _ := externalsOf_perm
    rwa [allAssets, flatMap_append, flatMap_singleton] at hperm
  rw [allDrawn, map_append, map_flatMap]
  exact ((hassets.append_right _).trans (hshuffle _ _ _ _)).trans (hexternals.append_right _)

theorem allDrawn_perm_selected (h : t.selectedUtxos.isSome = true) :
    (t.allDrawn x utxos selected).Perm selected := by
  have hdrawn : t.drawn x utxos selected =
      fun a => selected.filter fun u => u.unblinded.asset = a := by
    funext a
    rw [drawn, drawnFor, if_pos h]
  have hperm := perm_flatMap_filter (fun u : WalletTxOut => u.unblinded.asset)
    (allAssets_nodup x t selected) fun u hu => mem_allAssets (.inr (.inr (mem_map_of_mem hu)))
  rw [allAssets, flatMap_append, flatMap_singleton] at hperm
  rw [allDrawn, hdrawn, policyCoins, if_pos h]
  exact hperm

theorem drawn_sublist (h : t.selectedUtxos.isSome = false) (a : AssetId) :
    (t.drawn x utxos selected a).Sublist (coinsOf x utxos a) := by
  rw [drawn, drawnFor, if_neg (Bool.eq_false_iff.1 h)]
  split
  · exact (takenUntil_isPrefix _ _ _ _).sublist
  · exact nil_sublist _

theorem allDrawn_subperm (h : t.selectedUtxos.isSome = false) :
    (t.allDrawn x utxos selected).Subperm utxos.values := by
  have hsublist : (t.allDrawn x utxos selected).Sublist
      ((t.allAssets x selected).flatMap (coinsOf x utxos)) := by
    rw [allDrawn, allAssets, flatMap_append, flatMap_singleton, policyCoins,
      if_neg (Bool.eq_false_iff.1 h)]
    exact (List.Sublist.flatMap_right _ fun a _ => drawn_sublist h a).append (.refl _)
  have hperm := filter_perm_flatMap (fun u : WalletTxOut => u.unblinded.asset)
    (x.order.coins utxos.values) (allAssets_nodup x t selected)
  exact ((hsublist.subperm.trans hperm.subperm).trans filter_sublist.subperm).trans
    (x.order.coins_perm _).subperm

theorem mem_allDrawn (hat : AtOutpoints utxos) (hselected : t.selectedCoins utxos = .ok selected)
    {u : WalletTxOut} (hu : u ∈ t.allDrawn x utxos selected) :
    utxos.lookup u.outpoint = some u := by
  cases hsome : t.selectedUtxos.isSome with
  | true =>
    exact (selectedCoins_ok hat hselected).2 u ((allDrawn_perm_selected hsome).mem_iff.1 hu)
  | false => exact mem_values_atOutpoints hat ((allDrawn_subperm hsome).subset hu)

theorem allDrawn_nodup_iff (hat : AtOutpoints utxos)
    (hselected : t.selectedCoins utxos = .ok selected) :
    ((t.allDrawn x utxos selected).map (·.outpoint)).Nodup ↔ (t.selectedUtxos.getD []).Nodup := by
  cases hsome : t.selectedUtxos with
  | some selection =>
    have hperm : (t.allDrawn x utxos selected).Perm selected :=
      allDrawn_perm_selected (by rw [hsome]; rfl)
    rw [(hperm.map _).nodup_iff, (selectedCoins_ok hat hselected).1, hsome]
  | none =>
    have hsubperm : (t.allDrawn x utxos selected).Subperm utxos.values :=
      allDrawn_subperm (by rw [hsome]; rfl)
    obtain ⟨l, hperm, hsub⟩ := hsubperm
    have hnodup := (values_nodup hat).sublist (hsub.map _)
    exact iff_of_true ((hperm.map _).nodup_iff.1 hnodup) nodup_nil

namespace Finished

variable {p : Pset}

variable (f : Finished x w t p)

theorem atOutpoints : AtOutpoints f.utxos :=
  candidates_atOutpoints (utxosMap_atOutpoints f.utxosMap)

theorem outpoints : p.inputs.map (·.previousOutput) = f.coins.map (·.outpoint) := by
  have h := congrArg (map Prod.fst) f.spent
  rw [map_map, map_map] at h
  exact h

theorem external_not_mem {u : WalletTxOut}
    (hu : f.utxos.lookup u.outpoint = some u) : u.outpoint ∉ t.externalUtxos.map (·.outpoint) :=
  (lookup_candidates.1 hu).2.1

theorem mem_coins {c : Coin} (hc : c ∈ t.coins x f.utxos f.selected) :
    (∃ u ∈ t.externalUtxos, u.coin = c) ∨ ∃ u, f.utxos.lookup u.outpoint = some u ∧ u.coin = c := by
  rcases mem_append.1 (coins_perm.mem_iff.1 hc) with hc | hc
  · exact .inl (mem_map.1 hc)
  · obtain ⟨u, hu, rfl⟩ := mem_map.1 hc
    exact .inr ⟨u, mem_allDrawn f.atOutpoints f.selectedCoins hu, rfl⟩

theorem extra_nodup : (f.extra.map (·.outpoint)).Nodup ∧
      ∀ c ∈ f.extra, c.outpoint ∉ (t.coins x f.utxos f.selected).map (·.outpoint) := by
  by_cases hne : f.extra = []
  · rw [hne]
    exact ⟨nodup_nil, fun c hc => absurd hc not_mem_nil⟩
  · obtain ⟨u, hu, hextra, hnone⟩ := f.issues.token hne
    have hlookup := mem_values_atOutpoints f.atOutpoints hu
    rw [hextra]
    refine ⟨nodup_singleton _, fun c hc hmem => ?_⟩
    rw [mem_singleton.1 hc] at hmem
    obtain ⟨c', hc', heq⟩ := mem_map.1 hmem
    rcases f.mem_coins hc' with ⟨u', hu', rfl⟩ | ⟨u', hu', rfl⟩
    · exact f.external_not_mem hlookup (mem_map.2 ⟨u', hu', heq⟩)
    · have hsame : u'.outpoint = u.outpoint := heq
      rw [hsame, hlookup] at hu'
      cases hu'
      exact hnone _ hc' rfl

/-- **The inputs are distinct just if the caller's lists are.** -/
theorem nodup_iff (f : Finished x w t p) : (p.inputs.map (·.previousOutput)).Nodup ↔
      (t.externalUtxos.map (·.outpoint)).Nodup ∧ (t.selectedUtxos.getD []).Nodup := by
  have hcoins : ((t.coins x f.utxos f.selected).map (·.outpoint)).Nodup ↔
      (t.externalUtxos.map (·.outpoint)).Nodup ∧ (t.selectedUtxos.getD []).Nodup := by
    rw [(coins_perm.map _).nodup_iff, map_append, map_map, map_map,
      nodup_append, ← allDrawn_nodup_iff (x := x) f.atOutpoints f.selectedCoins]
    refine ⟨fun h => ⟨h.1, h.2.1⟩, fun h => ⟨h.1, h.2, ?_⟩⟩
    intro o ho o' ho' heq
    obtain ⟨u, hu, rfl⟩ := mem_map.1 ho'
    have hlookup := mem_allDrawn f.atOutpoints f.selectedCoins hu
    rw [heq] at ho
    exact f.external_not_mem hlookup ho
  rw [f.outpoints, coins, map_append, nodup_append, hcoins]
  refine ⟨fun h => h.1, fun h => ⟨h, f.extra_nodup.1, ?_⟩⟩
  intro o ho o' ho' heq
  obtain ⟨c, hc, rfl⟩ := mem_map.1 ho'
  exact f.extra_nodup.2 c hc (heq ▸ ho)

end Finished

/-! ## LiquiDEX -/

variable {b b' : Build} {p : Pset}

theorem takerCoins_nodup {all : HashMap OutPoint WalletTxOut} (hat : AtOutpoints all)
    (wanted : MakerSide) : ((takerCoins x all wanted).map (·.outpoint)).Nodup := by
  unfold takerCoins wantedCoins
  by_cases hpolicy : wanted.asset ≠ x.env.policyAsset
  · rw [if_pos hpolicy]
    -- the two assets differ, so this is a part of the wallet's coins
    have hnodup : [wanted.asset, x.env.policyAsset].Nodup := by simpa using hpolicy
    have hperm := filter_perm_flatMap (fun u : WalletTxOut => u.unblinded.asset)
      (x.order.coins all.values) hnodup
    have hsub : (takenUntil false wanted.satoshi (coinsOf x all wanted.asset) 0 ++
        coinsOf x all x.env.policyAsset).Sublist
        ([wanted.asset, x.env.policyAsset].flatMap (coinsOf x all)) := by
      rw [flatMap_cons, flatMap_singleton]
      exact (takenUntil_isPrefix _ _ _ _).sublist.append (.refl _)
    have hparts := (hperm.map (·.outpoint)).nodup_iff.2
      ((ordered_nodup x hat).sublist (filter_sublist.map _))
    exact hparts.sublist (hsub.map _)
  · rw [if_neg hpolicy, nil_append]
    exact (ordered_nodup x hat).sublist (filter_sublist.map _)

/-! ## No input twice -/

/-- The proposal does not spend a coin that the taker adds. -/
def TakesOthersCoin (x : Builder) (w : Wollet) (t : TxBuilder) : Prop :=
  ∀ proposal pset input output all wanted, t.liquidexProposals = [proposal] →
    proposal.toPset = .ok pset → pset.inputs = [input] → pset.outputs = [output] →
    w.utxosMap = .ok all → makerSide output.asset output.amount output.abf = .ok wanted →
    input.previousOutput ∉ (takerCoins x all wanted).map (·.outpoint)

/-- The caller's lists name no outpoint twice; a proposal that is taken spends another coin than
the taker. -/
def NamesCoinsOnce (x : Builder) (w : Wollet) (t : TxBuilder) : Prop :=
  if t.isLiquidexMake then True
  else if !t.liquidexProposals.isEmpty then t.TakesOthersCoin x w
  else (t.externalUtxos.map (·.outpoint)).Nodup ∧ (t.selectedUtxos.getD []).Nodup

theorem finishLiquidexTake_nodup_iff (h : t.finishLiquidexTake x w b = .ok p b') :
    (p.inputs.map (·.previousOutput)).Nodup ↔ t.TakesOthersCoin x w := by
  obtain ⟨f⟩ := finishLiquidexTake_ok h
  rw [f.outpoints, nodup_cons,
    and_iff_left (takerCoins_nodup (utxosMap_atOutpoints f.utxosMap) f.drafted.wanted)]
  constructor
  · intro hnot proposal' pset' input' output' all' wanted' hproposals' hpset' hinputs' houtputs'
      hall' hwanted'
    rw [f.proposals] at hproposals'
    cases hproposals'
    rw [f.toPset] at hpset'
    cases hpset'
    rw [f.inputs] at hinputs'
    cases hinputs'
    rw [f.outputs] at houtputs'
    cases houtputs'
    rw [f.utxosMap] at hall'
    cases hall'
    rw [f.drafted.wants] at hwanted'
    cases hwanted'
    exact hnot
  · intro hother
    exact hother f.proposal f.pset f.input f.output f.all f.drafted.wanted f.proposals f.toPset
      f.inputs f.outputs f.utxosMap f.drafted.wants

theorem finishInner_ok (h : t.finishInner x w = .ok p) :
    ∃ b', (if t.isLiquidexMake then t.finishLiquidexMake x w
      else if !t.liquidexProposals.isEmpty then t.finishLiquidexTake x w
      else t.finishPlain x w) (start w) = .ok p b' := by
  unfold finishInner at h
  dsimp only at h
  split at h
  · rename_i b' hrun
    cases h
    exact ⟨b', hrun⟩
  · cases h

/-- **No input twice.** The inputs of a finished transaction are distinct if and only if the caller
named no coin twice. -/
theorem inputs_nodup_iff (x : Builder) (w : Wollet) (t : TxBuilder) (p : Pset)
    (h : t.finishInner x w = .ok p) :
    (p.inputs.map (·.previousOutput)).Nodup ↔ t.NamesCoinsOnce x w := by
  obtain ⟨b', hrun⟩ := finishInner_ok h
  unfold NamesCoinsOnce
  by_cases hmake : t.isLiquidexMake = true
  · rw [if_pos hmake] at hrun ⊢
    obtain ⟨m⟩ := finishLiquidexMake_ok hrun
    rw [m.inputs]
    exact iff_of_true (nodup_singleton _) trivial
  · rw [if_neg hmake] at hrun ⊢
    by_cases htake : (!t.liquidexProposals.isEmpty) = true
    · rw [if_pos htake] at hrun ⊢
      exact finishLiquidexTake_nodup_iff hrun
    · rw [if_neg htake] at hrun ⊢
      obtain ⟨f⟩ := finishPlain_ok hrun
      exact f.nodup_iff

end TxBuilder

/-! ## A coin selected twice -/

namespace SelectedTwice

def paying : Transaction := ⟨[], [⟨.explicit 1, .explicit 100000, .null, Concrete.script 0, none⟩]⟩

def env : Env := Concrete.env (fun _ => 7) [Concrete.script 0]

def wallet : Wollet := Concrete.funded env [paying]

def tx : TxBuilder :=
  { TxBuilder.new 1 with
    recipients := [⟨150000, Concrete.script 1, none, 1⟩]
    selectedUtxos := some [⟨7, 0⟩, ⟨7, 0⟩] }

theorem finishes : Concrete.finishes (Concrete.builder env) wallet tx = true := by decide

/-- The coin is spent twice, and more is sent than there is. -/
theorem inputs_repeated : ∃ p, tx.finishInner (Concrete.builder env) wallet = .ok p ∧
    ¬ (p.inputs.map (·.previousOutput)).Nodup :=
  ⟨_, Concrete.finishInner_finished finishes, by decide⟩

theorem inputs_nodup_iff_twice :
    ((Concrete.finished (Concrete.builder env) wallet tx).inputs.map (·.previousOutput)).Nodup ↔
      tx.NamesCoinsOnce (Concrete.builder env) wallet :=
  TxBuilder.inputs_nodup_iff _ _ _ _ (Concrete.finishInner_finished finishes)

end SelectedTwice

end Swk
