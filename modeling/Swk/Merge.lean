import Swk.Edit
import Swk.Same
import Swk.Scan
import Swk.Stored

/-!
# Squashing two updates into one

`Update::merge` is meant to give an update with the effect of two updates in sequence. For most
of the cache it does: heights, order of transactions, txids, unblinded outputs, scripts, paths,
timestamps, tip and last unused indexes come out the same whenever the merged update is accepted.

Two things can differ. The merged update carries the tip of the second, which is then checked
against the tip before the first. And the unspent map is edited once where it was edited twice:
each outpoint gets the join of two edits in the sense of `Edit`, so `Edit.join_eq_iff` decides
when the outcome is the same. A transaction that the first update deletes and the second lists
again is the plainest case where it is not. `merge_same_iff` puts it together.
-/

namespace Swk

open Cache List HashMap

/-! ## Heights -/

theorem lastValue_mergeHeights (new following : List (Txid × Option Height)) (delete : List Txid)
    (t : Txid) : HashMap.lastValue t (Update.mergeHeights new following delete) =
      (HashMap.lastValue t following).or
        (if t ∈ delete then none else HashMap.lastValue t new) := by
  have hfold (acc : List (Txid × Option Height)) : lastValue t
          (following.foldl (fun acc e => acc.filter (fun a => a.1 ≠ e.1) ++ [e]) acc) =
        (lastValue t following).or (lastValue t acc) := by
    induction following generalizing acc with
    | nil => rfl
    | cons e following ih =>
      have hone : lastValue t [e] = if e.1 = t then some e.2 else none := Option.none_or
      rw [foldl_cons, ih, lastValue_append, hone, lastValue_cons, Option.or_assoc]
      by_cases he : e.1 = t
      · simp [he]
      · have hfilter := lastValue_filter (fun a => decide (a ≠ e.1)) t acc
        rw [if_pos (decide_eq_true (Ne.symm he))] at hfilter
        rw [if_neg he, hfilter]
  have hdel := lastValue_filter (fun a => decide (a ∉ delete)) t new
  rw [Update.mergeHeights, hfold, hdel]
  by_cases h : t ∈ delete <;> simp [h]

theorem mem_mergeHeights {new following : List (Txid × Option Height)} {delete : List Txid}
    {t : Txid} : t ∈ (Update.mergeHeights new following delete).map Prod.fst ↔
      (t ∈ new.map Prod.fst ∧ t ∉ delete) ∨ t ∈ following.map Prod.fst := by
  rw [mem_keys_iff, lastValue_mergeHeights, Option.isSome_or, Bool.or_eq_true,
    ← mem_keys_iff, or_comm]
  refine or_congr_left ?_
  by_cases h : t ∈ delete
  · simp [h]
  · rw [if_neg h, ← mem_keys_iff]
    exact (and_iff_left h).symm

theorem updateHeights_merge (heights : HashMap Txid (Option Height))
    (new following : List (Txid × Option Height)) (delete delete' : List Txid) : HashMap.Same
      (updateHeights heights (Update.mergeHeights new following delete') (delete ++ delete'))
      (updateHeights (updateHeights heights new delete) following delete') := by
  intro t
  simp only [updateHeights, lookup_extend,
    lookup_retain_keys _ fun k => decide (k ∉ _), lastValue_mergeHeights, Option.or_assoc]
  by_cases h : t ∈ delete' <;> simp [h]

/-! ## Edits of the unspent map -/

/-- An outpoint the wallet has the secrets of, once it has the data of `k`. -/
def Opens (w : Wollet) (k : Update) (o : OutPoint) : Prop :=
  o ∈ w.cache.unblinded ∨ ∃ secrets, (o, secrets) ∈ k.newTxs.unblinds

/-- An outpoint that pays script `s` of the wallet, as far as it knows with the data of `k`. -/
def Pays (w : Wollet) (k : Update) (o : OutPoint) (s : Script) : Prop :=
  outpointScript w.disk.txs k.newTxs.txs o = some s ∧
    (s ∈ w.cache.paths ∨ s ∈ k.scriptsWithBlindingPubkey.map fun e => e.2.2.1)

/-- What update `u` does to the entry of `o` in the unspent map, given the data of `k`. -/
def edit (w : Wollet) (k u : Update) (o : OutPoint) : Edit Script where
  takes := o.txid ∈ u.txidHeightDelete ∨ ∃ t ∈ u.txidHeightNew.map (·.1), KnownSpend w k t o
  puts := fun s => Opens w k o ∧ Pays w k o s ∧
    (o.txid ∈ u.txidHeightNew.map (·.1) ∨ ∃ t ∈ u.txidHeightDelete, KnownSpend w k t o)

/-- A cache, a store and transactions at hand that have what `w` has with the data of `k`. -/
structure Knows (w : Wollet) (k : Update) (c : Cache) (store : TxsStore)
    (txs : List (Txid × Transaction)) : Prop where
  paths : ∀ s, s ∈ c.paths ↔
    s ∈ w.cache.paths ∨ s ∈ k.scriptsWithBlindingPubkey.map fun e => e.2.2.1
  unblinded : ∀ o, o ∈ c.unblinded ↔ Opens w k o
  txs : ∀ t, (txAsFallback store txs t).map Transaction.stripped =
    (txAsFallback w.disk.txs k.newTxs.txs t).map Transaction.stripped

section Edits

variable {w : Wollet} {k : Update} {c : Cache} {store : TxsStore}
  {txs : List (Txid × Transaction)}

theorem Knows.mem_inputsOf (h : Knows w k c store txs) {ids : List Txid} {o : OutPoint} :
    o ∈ inputsOf store txs ids ↔ ∃ t ∈ ids, KnownSpend w k t o := by
  rw [Cache.mem_inputsOf]
  exact exists_congr fun t => and_congr_right fun _ => spends_of_stripped (h.txs t) o

theorem Knows.outpointScript (h : Knows w k c store txs) (o : OutPoint) :
    Cache.outpointScript store txs o = Cache.outpointScript w.disk.txs k.newTxs.txs o :=
  scriptAt_of_stripped (h.txs o.txid) o.vout

theorem Knows.myScript (h : Knows w k c store txs) {o : OutPoint} {s : Script} :
    c.myScript store txs o = some s ↔ Pays w k o s := by
  rw [Cache.myScript, Option.filter_eq_some_iff, decide_eq_true_eq, h.paths, Pays, h.outpointScript]

/-- **`update_unspent` is this edit of every entry.** -/
theorem Knows.maps (h : Knows w k c store txs) (u : Update) (o : OutPoint) :
    (edit w k u o).Maps (c.unspent.lookup o)
      ((c.updateUnspent store u.txidHeightNew u.txidHeightDelete txs).lookup o) := by
  have htakes : Removes store u.txidHeightNew u.txidHeightDelete txs o ↔ (edit w k u o).takes := by
    rw [Removes, h.mem_inputsOf, or_comm]
    exact Iff.rfl
  have hadds : Adds c store u.txidHeightNew u.txidHeightDelete txs o ↔ Opens w k o ∧
      (o.txid ∈ u.txidHeightNew.map (·.1) ∨ ∃ t ∈ u.txidHeightDelete, KnownSpend w k t o) := by
    rw [Adds, h.unblinded, h.mem_inputsOf]
  rw [lookup_updateUnspent]
  refine ⟨fun ht => if_pos (htakes.2 ht), fun ht s hs => ?_, fun ht hnone => ?_⟩
  · rw [if_neg (mt htakes.1 ht), if_pos (hadds.2 ⟨hs.1, hs.2.2⟩), h.myScript.2 hs.2.1]
    rfl
  · rw [if_neg (mt htakes.1 ht)]
    by_cases ha : Adds c store u.txidHeightNew u.txidHeightDelete txs o
    · obtain ⟨hopens, hput⟩ := hadds.1 ha
      have hscript : c.myScript store txs o = none := by
        refine Option.eq_none_iff_forall_ne_some.2 fun s hs => ?_
        exact hnone s ⟨hopens, h.myScript.1 hs, hput⟩
      rw [if_pos ha, hscript, Option.none_or]
    · rw [if_neg ha]

end Edits

/-! ## Two updates -/

/-- What is left of an update when the one after it deletes some of what it lists. -/
def Update.surviving (u following : Update) : Update :=
  { u with txidHeightNew := u.txidHeightNew.filter fun e => e.1 ∉ following.txidHeightDelete }

section Two

variable {env : Env} {U : Set Transaction} {w : Wollet} {u u₁ u₂ : Update}
  {scripts scripts₁ scripts₂ : List ScriptEntry}

theorem edit_merge (k : Update) (o : OutPoint) {x y : Option Script}
    (h : (edit w k (u₁.merge u₂) o).Maps x y) :
    ((edit w k (u₁.surviving u₂) o).join (edit w k u₂ o)).Maps x y := by
  have hnew (t : Txid) : t ∈ (u₁.merge u₂).txidHeightNew.map (·.1) ↔
      t ∈ (u₁.surviving u₂).txidHeightNew.map (·.1) ∨ t ∈ u₂.txidHeightNew.map (·.1) := by
    refine mem_mergeHeights.trans (or_congr_left ?_)
    rw [mem_keys_iff, mem_keys_iff, Update.surviving]
    rw [lastValue_filter fun t => decide (t ∉ u₂.txidHeightDelete)]
    by_cases ht : t ∈ u₂.txidHeightDelete <;> simp [ht]
  have hdel (t : Txid) : t ∈ (u₁.merge u₂).txidHeightDelete ↔
      t ∈ (u₁.surviving u₂).txidHeightDelete ∨ t ∈ u₂.txidHeightDelete := mem_append
  refine h.of_iff ?_ fun s => ?_
  · simp only [edit, Edit.join, hnew, hdel, or_and_right, exists_or]
    exact or_or_or_comm
  · simp only [edit, Edit.join, hnew, hdel, or_and_right, exists_or, ← and_or_left]
    refine and_congr_right fun _ => and_congr_right fun _ => ?_
    exact or_or_or_comm

theorem computeBlindingPubkeyIfMissing_append {d : WolletDescriptor} {l₁ l₂ : List ScriptEntry}
    (h₁ : computeBlindingPubkeyIfMissing d l₁ = .ok scripts₁)
    (h₂ : computeBlindingPubkeyIfMissing d l₂ = .ok scripts₂) :
    computeBlindingPubkeyIfMissing d (l₁ ++ l₂) = .ok (scripts₁ ++ scripts₂) := by
  unfold computeBlindingPubkeyIfMissing at h₁ h₂ ⊢
  rw [mapM_append, h₁, h₂]
  rfl

theorem max_assoc_u32 (a b c : UInt32) : max (max a b) c = max a (max b c) := by
  simp only [Max.max]
  grind

theorem same_merge_iff (hv₁ : u₁.version = 4) (hv₂ : u₂.version = 4) (c : Cache)
    (store store₁ store₂ : TxsStore) :
    (c.applied env (u₁.merge u₂) (scripts₁ ++ scripts₂) store).Same
        ((c.applied env u₁ scripts₁ store₁).applied env u₂ scripts₂ store₂) ↔
      HashMap.Same (c.applied env (u₁.merge u₂) (scripts₁ ++ scripts₂) store).unspent
        ((c.applied env u₁ scripts₁ store₁).applied env u₂ scripts₂ store₂).unspent := by
  have hv₁ : 4 ≤ u₁.version := by rw [hv₁]; decide
  have hv₂ : 4 ≤ u₂.version := by rw [hv₂]; decide
  have hv : 4 ≤ (u₁.merge u₂).version := hv₂
  have hheights := updateHeights_merge c.heights u₁.txidHeightNew u₂.txidHeightNew
    u₁.txidHeightDelete u₂.txidHeightDelete
  have hindex (chain : Chain) :
      (c.applied env (u₁.merge u₂) (scripts₁ ++ scripts₂) store).lastUnusedOf chain =
        ((c.applied env u₁ scripts₁ store₁).applied env u₂ scripts₂ store₂).lastUnusedOf chain := by
    rw [applied_lastUnusedOf, if_pos hv, applied_lastUnusedOf, if_pos hv₂, applied_lastUnusedOf,
      if_pos hv₁, max_assoc_u32]
    cases chain <;> rfl
  refine ⟨Cache.Same.unspent, fun hunspent => ?_⟩
  refine ⟨?_, ?_, ?_, ?_, ?_, hunspent, ?_, ?_, ?_, hindex .external, hindex .internal⟩
  · simp only [applied_txids, Update.merge, map_append, toFinset_append, Finset.union_assoc]
  · simp [applied_paths, pathsOf, extend_append, HashMap.Same.refl]
  · simp [applied_scripts, extend_append, HashMap.Same.refl]
  · simp only [applied_heights]
    exact hheights
  · simp only [applied_sortedTxids, applied_heights]
    exact rebuildSortedTxids_same hheights
  · simp [applied_unblinded, Update.merge, extend_append, HashMap.Same.refl]
  · simp only [applied_tip, Update.merge]
    by_cases h₂ : u₂.tip = defaultBlockheader <;> simp [h₂]
  · simp [applied_timestamps, Update.merge, extend_append, HashMap.Same.refl]

variable (hb : env.Binds U) (hs : Keyed env U w.disk.txs)

include hb hs

theorem knows_stage (ht : KeyedList env U u.newTxs.txs)
    (hscripts : computeBlindingPubkeyIfMissing env.descriptor u.scriptsWithBlindingPubkey =
      .ok scripts) :
    Knows w u (w.cache.stage env u scripts) (w.disk.txs.extend u.newTxs.txs) u.newTxs.txs where
  paths := fun s => by
    show s ∈ w.cache.paths.extend (pathsOf scripts) ↔ _
    rw [HashMap.mem_extend, pathsOf_computed hscripts, mem_pathsOf, or_comm]
  unblinded := fun o => by
    show o ∈ w.cache.unblinded.extend u.newTxs.unblinds ↔ _
    rw [HashMap.mem_extend, or_comm]
    exact Iff.rfl
  txs := fun t => by
    rw [stripped_txAsFallback hb hs ht, stripped_before hb hs ht]

variable (ht : KeyedList env U (u₁.newTxs.txs ++ u₂.newTxs.txs))

include ht

theorem knownSpend_merge {t : Txid} {o : OutPoint} (h : KnownSpend w u₁ t o) :
    KnownSpend w (u₁.merge u₂) t o := by
  obtain ⟨tx, htx, ho⟩ := h
  exact (spends_of_stripped (stripped_append hb hs ht htx) o).1 ⟨tx, htx, ho⟩

theorem outpointScript_append {o : OutPoint} {s : Script}
    (h : outpointScript w.disk.txs u₁.newTxs.txs o = some s) :
    outpointScript w.disk.txs (u₁.newTxs.txs ++ u₂.newTxs.txs) o = some s := by
  obtain ⟨tx, htx, -⟩ := Option.bind_eq_some_iff.1 h
  rw [← h]
  exact (scriptAt_of_stripped (stripped_append hb hs ht htx) o.vout).symm

theorem puts_surviving {o : OutPoint} {s : Script} (hdel : o.txid ∉ u₂.txidHeightDelete)
    (h : (edit w u₁ u₁ o).puts s) :
    (edit w (u₁.merge u₂) (u₁.surviving u₂) o).puts s := by
  obtain ⟨hopens, ⟨hscript, hmine⟩, hput⟩ := h
  refine ⟨?_, ⟨outpointScript_append hb hs ht hscript, ?_⟩, ?_⟩
  · refine hopens.imp_right fun hsecrets => ?_
    obtain ⟨secrets, hmem⟩ := hsecrets
    exact ⟨secrets, mem_append_left _ hmem⟩
  · exact hmine.imp_right fun hmem => map_subset _ (subset_append_left _ _) hmem
  · rcases hput with hlisted | ⟨t, htdel, hspend⟩
    · obtain ⟨e, he, htxid⟩ := mem_map.1 hlisted
      refine .inl (mem_map.2 ⟨e, mem_filter.2 ⟨he, ?_⟩, htxid⟩)
      rw [htxid]
      exact decide_eq_true hdel
    · exact .inr ⟨t, htdel, knownSpend_merge hb hs ht hspend⟩

/-- When the unspent map comes out the same. In `utxo_only` mode: an outpoint that the second
update reports and the first does not was not recorded with another script. Otherwise, for every
outpoint: the second update does not put in what survives of the first takes out, and where the
second leaves it alone, it makes no difference to the first to have the data of both. -/
def UnspentMerges (env : Env) (w : Wollet) (u₁ u₂ : Update) : Prop :=
  if env.utxoOnly then
    ∀ o ∈ u₂.unspent, o ∉ u₁.unspent → ∀ s, w.cache.unspent.lookup o = some s →
      outpointScript w.disk.txs (u₁.newTxs.txs ++ u₂.newTxs.txs) o = some s
  else
    ∀ o, Edit.NoRevival (edit w (u₁.merge u₂) (u₁.surviving u₂) o) (edit w (u₁.merge u₂) u₂ o) ∧
        ((edit w (u₁.merge u₂) u₂ o).Skips → Edit.Timely (w.cache.unspent.lookup o) (edit w u₁ u₁ o)
            (edit w (u₁.merge u₂) (u₁.surviving u₂) o))

variable (hscripts₁ : computeBlindingPubkeyIfMissing env.descriptor u₁.scriptsWithBlindingPubkey =
  .ok scripts₁)
variable (hscripts₂ : computeBlindingPubkeyIfMissing env.descriptor u₂.scriptsWithBlindingPubkey =
  .ok scripts₂)

include hscripts₁ hscripts₂

theorem knows_stage_second (store : TxsStore) :
    Knows w (u₁.merge u₂) ((w.cache.applied env u₁ scripts₁ store).stage env u₂ scripts₂)
      ((w.disk.txs.extend u₁.newTxs.txs).extend u₂.newTxs.txs) u₂.newTxs.txs where
  paths := fun s => by
    show s ∈ (w.cache.applied env u₁ scripts₁ store).paths.extend (pathsOf scripts₂) ↔ _
    simp only [applied_paths, HashMap.mem_extend, pathsOf_computed hscripts₁,
      pathsOf_computed hscripts₂, mem_pathsOf, Update.merge, List.map_append, List.mem_append]
    rw [or_comm, or_right_comm]
    exact or_comm
  unblinded := fun o => by
    show o ∈ (w.cache.applied env u₁ scripts₁ store).unblinded.extend u₂.newTxs.unblinds ↔ _
    simp only [applied_unblinded, HashMap.mem_extend, Opens, Update.merge, List.mem_append,
      exists_or]
    rw [or_comm, or_comm (b := o ∈ w.cache.unblinded), or_assoc]
  txs := fun t => by
    have ht₂ : KeyedList env U u₂.newTxs.txs := fun e he => ht e (List.mem_append_right _ he)
    rw [← HashMap.extend_append]
    refine stripped_eq hb (fun tx h => txAsFallback_keyed (hs.extend ht) ht₂ h)
      (fun tx h => txAsFallback_keyed hs ht h) ?_
    rw [txAsFallback_isSome, txAsFallback_isSome, mem_store_extend]
    refine ⟨fun h => h.elim (fun h => .inl ?_) id, .inr⟩
    exact List.map_subset _ (List.subset_append_right _ _) h

/-- **The unspent map of the merged update.** -/
theorem unspent_merge_iff
    (hscripts : computeBlindingPubkeyIfMissing env.descriptor
      (u₁.merge u₂).scriptsWithBlindingPubkey = .ok scripts) :
    HashMap.Same (w.cache.applied env (u₁.merge u₂) scripts
        (w.disk.txs.extend (u₁.merge u₂).newTxs.txs)).unspent
      ((w.cache.applied env u₁ scripts₁ (w.disk.txs.extend u₁.newTxs.txs)).applied env u₂
        scripts₂ ((w.disk.txs.extend u₁.newTxs.txs).extend u₂.newTxs.txs)).unspent ↔
      UnspentMerges env w u₁ u₂ := by
  have ht₁ : KeyedList env U u₁.newTxs.txs := fun e he => ht e (mem_append_left _ he)
  have hk₁ := knows_stage hb hs ht₁ hscripts₁
  have hk₂ := knows_stage_second hb hs ht hscripts₁ hscripts₂ (w.disk.txs.extend u₁.newTxs.txs)
  have hk := knows_stage (u := u₁.merge u₂) hb hs ht hscripts
  rw [applied_unspent, applied_unspent, UnspentMerges]
  cases hutxo : env.utxoOnly with
  | false =>
    simp only [Bool.false_eq_true, if_false]
    refine forall_congr' fun o => ?_
    have h₁ := hk₁.maps u₁ o
    have h₂ := hk₂.maps u₂ o
    have h := edit_merge (u₁.merge u₂) o (hk.maps (u₁.merge u₂) o)
    have hmid : ((w.cache.applied env u₁ scripts₁
        (w.disk.txs.extend u₁.newTxs.txs)).stage env u₂ scripts₂).unspent =
        (w.cache.stage env u₁ scripts₁).updateUnspent (w.disk.txs.extend u₁.newTxs.txs)
          u₁.txidHeightNew u₁.txidHeightDelete u₁.newTxs.txs := by
      show (w.cache.applied env u₁ scripts₁ _).unspent = _
      rw [applied_unspent, hutxo]
      rfl
    rw [hmid] at h₂
    refine Edit.join_eq_iff h₁ h₂ h fun hnt s hp => ?_
    exact puts_surviving hb hs ht (fun hdel => hnt (.inl hdel)) hp
  | true =>
    simp only [if_true]
    refine forall_congr' fun o => ?_
    rw [lookup_updateUnspentUtxosOnly, lookup_updateUnspentUtxosOnly, hk.outpointScript,
      hk₂.outpointScript, applied_unspent, hutxo, if_pos rfl, lookup_updateUnspentUtxosOnly,
      hk₁.outpointScript]
    by_cases ho₂ : o ∈ u₂.unspent
    · rw [if_pos (show o ∈ (u₁.merge u₂).unspent from ho₂), if_pos ho₂]
      refine Iff.trans ?_ (forall_prop_of_true ho₂).symm
      by_cases ho₁ : o ∈ u₁.unspent
      · -- what the first update found for it is found again
        have hagain : (outpointScript w.disk.txs u₁.newTxs.txs o).or
            (outpointScript w.disk.txs (u₁.merge u₂).newTxs.txs o) =
            outpointScript w.disk.txs (u₁.merge u₂).newTxs.txs o := by
          cases hs₁ : outpointScript w.disk.txs u₁.newTxs.txs o with
          | none => rfl
          | some s => exact (outpointScript_append hb hs ht hs₁).symm
        rw [if_pos ho₁, Option.or_assoc, hagain]
        exact ⟨fun _ hc => absurd ho₁ hc, fun _ => rfl⟩
      · rw [if_neg ho₁, Option.none_or]
        refine Iff.trans ?_ (forall_prop_of_true ho₁).symm
        cases w.cache.unspent.lookup o with
        | none => exact ⟨fun _ s hc => absurd hc (by simp), fun _ => rfl⟩
        | some s =>
          refine ⟨fun h s' hs' => ?_, fun h => (h s rfl).symm⟩
          rw [← hs']
          exact h.symm
    · rw [if_neg (show o ∉ (u₁.merge u₂).unspent from ho₂), if_neg ho₂]
      exact ⟨fun _ hc => absurd hc ho₂, fun _ => rfl⟩

end Two

/-- The tip of the second update is not too old for the wallet before the first. -/
def TipMerges (w : Wollet) (u₂ : Update) : Prop :=
  u₂.tip = defaultBlockheader ∨ ¬ u₂.tip.height + 1 < w.cache.tip.1

/-- **Merging is applying in sequence, when it is.** Of two updates of version 4 that are applied
one after the other, the merge can be applied and leaves the same cache exactly when the second
tip is not too old for the first state and the edits of the unspent map merge. -/
theorem merge_same_iff {env : Env} {U : Set Transaction} {w w₁ w₂ : Wollet} {u₁ u₂ : Update}
    (hf : ∀ n, env.storeFails n = false) (hb : env.Binds U) (hs : Keyed env U w.disk.txs)
    (ht : KeyedList env U (u₁.newTxs.txs ++ u₂.newTxs.txs))
    (hv₁ : u₁.version = 4) (hv₂ : u₂.version = 4)
    (h₁ : applyUpdateInner env u₁ w = .ok () w₁) (h₂ : applyUpdateInner env u₂ w₁ = .ok () w₂) :
    (∃ w', applyUpdateInner env (u₁.merge u₂) w = .ok () w' ∧ w'.cache.Same w₂.cache) ↔
      TipMerges w u₂ ∧ UnspentMerges env w u₁ u₂ := by
  obtain ⟨scripts₁, ha₁, rfl⟩ := applyUpdateInner_ok h₁
  obtain ⟨scripts₂, ha₂, rfl⟩ := applyUpdateInner_ok h₂
  have hscripts : computeBlindingPubkeyIfMissing env.descriptor
      (u₁.merge u₂).scriptsWithBlindingPubkey = .ok (scripts₁ ++ scripts₂) :=
    computeBlindingPubkeyIfMissing_append ha₁.scripts ha₂.scripts
  have hsame : (w.cache.applied env (u₁.merge u₂) (scripts₁ ++ scripts₂)
      (w.disk.txs.extend (u₁.merge u₂).newTxs.txs)).Same
        ((w.applied env u₁ scripts₁).applied env u₂ scripts₂).cache ↔
      UnspentMerges env w u₁ u₂ :=
    (same_merge_iff hv₁ hv₂ _ _ _ _).trans
      (unspent_merge_iff hb hs ht ha₁.scripts ha₂.scripts hscripts)
  refine ⟨fun h => ?_, fun h => ?_⟩
  · obtain ⟨w', hrun, hcache⟩ := h
    obtain ⟨scripts, ha, rfl⟩ := applyUpdateInner_ok hrun
    obtain rfl : scripts = scripts₁ ++ scripts₂ := by
      have heq := ha.scripts.symm.trans hscripts
      exact Except.ok.inj heq
    refine ⟨?_, hsame.1 hcache⟩
    by_cases htip : u₂.tip = defaultBlockheader
    · exact .inl htip
    · have hmerged : (u₁.merge u₂).tip = u₂.tip := if_pos htip
      rw [TipMerges, ← hmerged]
      exact ha.tip
  · refine ⟨w.applied env (u₁.merge u₂) (scripts₁ ++ scripts₂), ?_, hsame.2 h.2⟩
    refine applyUpdateInner_eq (fun n _ _ => hf n) ⟨ha₁.status, hscripts, ?_⟩
    by_cases htip : u₂.tip = defaultBlockheader
    · have hmerged : (u₁.merge u₂).tip = u₁.tip := if_neg (not_not.2 htip)
      exact hmerged ▸ ha₁.tip
    · have hmerged : (u₁.merge u₂).tip = u₂.tip := if_pos htip
      exact hmerged ▸ h.1

/-! ## A transaction dropped and seen again -/

namespace Reorged

def payment : Transaction := ⟨[], [⟨.explicit 1, .explicit 1000, .null, [1], none⟩]⟩

def env : Env := Concrete.env (fun _ => 7) [[1]]

def server (height : Height) (present : Bool) : Backend :=
  Concrete.server env height [payment] fun script =>
    if script = [1] && present then [⟨7, 0, none⟩] else []

def paid : Wollet :=
  Concrete.updated env (Concrete.scanned env (server 4 true) (.fresh .empty)) (.fresh .empty)

def dropped : Update := Concrete.scanned env (server 5 false) paid

def without : Wollet := Concrete.updatedInner env dropped paid

def seen : Update := Concrete.scanned env (server 6 true) without

def again : Wollet := Concrete.updatedInner env seen without

theorem binds : env.Binds {payment} := by
  intro tx htx tx' htx' _
  rw [htx, htx']

theorem keyed : Keyed env {payment} paid.disk.txs := by
  have htxs : paid.disk.txs = AList.insert 7 payment ∅ := rfl
  intro t tx h
  rw [htxs] at h
  by_cases ht : t = 7
  · subst ht
    rw [AList.lookup_insert] at h
    cases h
    exact ⟨rfl, rfl⟩
  · rw [AList.lookup_insert_ne ht] at h
    exact absurd h (by simp)

/-- In sequence the two updates bring the output back; merged, they lose it. -/
theorem merge_loses_output : dropped.version = 4 ∧ seen.version = 4 ∧
    applyUpdateInner env dropped paid = .ok () without ∧
    applyUpdateInner env seen without = .ok () again ∧
    ¬ ∃ w', applyUpdateInner env (dropped.merge seen) paid = .ok () w' ∧
      w'.cache.Same again.cache := by
  refine ⟨rfl, rfl, rfl, rfl, fun h => ?_⟩
  obtain ⟨w', hrun, hsame⟩ := h
  have hmerged : w'.cache.unspent.lookup ⟨7, 0⟩ = none := by
    cases hrun
    rfl
  have hlost := hsame.unspent ⟨7, 0⟩
  rw [hmerged] at hlost
  exact absurd hlost (by decide)

theorem merge_same_iff_reorged : (∃ w', applyUpdateInner env (dropped.merge seen) paid = .ok () w' ∧
      w'.cache.Same again.cache) ↔ TipMerges paid seen ∧ UnspentMerges env paid dropped seen :=
  merge_same_iff (fun _ => rfl) binds keyed (fun _ he => absurd he not_mem_nil) rfl rfl rfl rfl

end Reorged

end Swk
