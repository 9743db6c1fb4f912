import Swk.Funds
import Swk.Same

/-!
# Updates that fail

A caller who gets an error from `apply_update` should be able to try the same update again, so the
cache should be as it was. The checks come first and change nothing. But the cache is changed before
and between the writes to the transaction store, and the update is persisted only once the cache has
all of it: when a store fails, the cache keeps what was done so far. Its status is then another one,
and the same update is refused for good. A merge is worse: it removes the stored updates before it
writes their merge, and if one of these operations fails, no later merge finds them all.

A failed call leaves the cache alone and can be repeated, whichever operation of the stores fails,
exactly if the update is refused, or starts no merge and the wallet has what it brings.
-/

namespace Swk

open Cache HashMap

/-- The environment, with stores that fail as given. -/
def Env.failing (env : Env) (fails : Nat → Bool) : Env := { env with storeFails := fails }

/-- The environment once the stores have recovered. -/
def Env.recovered (env : Env) : Env := env.failing fun _ => false

/-- **A call that fails changes nothing**: the cache has the content it had, and the update goes
through once the stores have recovered, unless it was refused for itself. -/
def FailsCleanly {α : Type} (env : Env) (accepted : Prop) (u : Update) (m : WolletM α)
    (w : Wollet) : Prop :=
  ∀ e w', m w = .error e w' → w'.cache.Same w.cache ∧
    (accepted → ∃ w'', applyUpdate env.recovered u w' = .ok () w'')

/-- Persisting an update starts a merge of the stored ones. -/
def MergeDue (env : Env) (w : Wollet) (u : Update) : Prop :=
  coalesce env w u = none ∧ ∃ threshold, env.mergeThreshold = some threshold ∧
    threshold < w.nextUpdateIndex + 1

/-! ## Persisting without a merge -/

section Persisting

variable {env : Env} {u : Update} {w w' : Wollet} {e : Error}

theorem mergeUpdates_idle {n : Nat}
    (h : ∀ threshold, env.mergeThreshold = some threshold → ¬ threshold < n) :
    mergeUpdates env n = pure n := by
  unfold mergeUpdates
  cases hthreshold : env.mergeThreshold with
  | none => rfl
  | some threshold => exact if_neg (h threshold hthreshold)

theorem mergeUpdates_due {n threshold : Nat} (h : env.mergeThreshold = some threshold)
    (hlt : threshold < n) : mergeUpdates env n = mergeStored env n := by
  rw [mergeUpdates, h]
  exact if_pos hlt

theorem attemptUpdate_error {op : StoreOp} (h : attemptUpdate env op w = .error e w') :
    env.fakeUpdatesStore = false ∧ w' = { w with attempts := w.attempts + 1 } := by
  cases hfake : env.fakeUpdatesStore with
  | true => simp [attemptUpdate, hfake, pure, EStateM.pure] at h
  | false =>
    simp only [attemptUpdate, hfake, Bool.false_eq_true, if_false, attempt] at h
    split at h
    · cases h
      exact ⟨rfl, rfl⟩
    · cases h

/-- Persisting writes once, and only a merge does more that may fail. -/
theorem persist_eq (env : Env) (u : Update) (w : Wollet) : ∃ op rest,
    persist env u w = (attemptUpdate env op >>= rest) w ∧
      (¬ MergeDue env w u → ∀ w', ∃ w'', rest () w' = .ok () w'') := by
  rw [persist, get_bind]
  cases hc : coalesce env w u with
  | some u' => exact ⟨_, pure, congrFun (bind_pure _).symm w, fun _ w' => ⟨w', rfl⟩⟩
  | none =>
    refine ⟨_, _, rfl, fun hdue w' => ?_⟩
    rw [mergeUpdates_idle fun threshold hth hlt => hdue ⟨hc, threshold, hth, hlt⟩]
    exact ⟨_, rfl⟩

/-- **Without a merge, persisting fails at its one write** or not at all. -/
theorem persist_error (hdue : ¬ MergeDue env w u) (h : persist env u w = .error e w') :
    env.fakeUpdatesStore = false ∧ w' = { w with attempts := w.attempts + 1 } := by
  obtain ⟨op, rest, heq, hrest⟩ := persist_eq env u w
  rw [heq] at h
  rcases bind_error_iff.1 h with h | ⟨_, w₁, -, h⟩
  · exact attemptUpdate_error h
  · obtain ⟨w₂, hok⟩ := hrest hdue w₁
    cases hok.symm.trans h

theorem attemptUpdate_runs (hworks : ∀ n, env.storeFails n = false) (op : StoreOp) (w : Wollet) :
    ∃ w', attemptUpdate env op w = .ok () w' := by
  unfold attemptUpdate
  split
  · exact ⟨w, rfl⟩
  · exact ⟨_, attempt_eq (hworks _) _ op⟩

theorem persist_succeeds (hworks : ∀ n, env.storeFails n = false) (hdue : ¬ MergeDue env w u) :
    ∃ w', persist env u w = .ok () w' := by
  obtain ⟨op, rest, heq, hrest⟩ := persist_eq env u w
  obtain ⟨w₁, hop⟩ := attemptUpdate_runs hworks op w
  obtain ⟨w₂, hok⟩ := hrest hdue w₁
  exact ⟨w₂, heq.trans (bind_ok_iff.2 ⟨(), w₁, hop, hok⟩)⟩

theorem persist_fails (hfake : env.fakeUpdatesStore = false)
    (hfails : env.storeFails w.attempts = true) : persist env u w =
      .error (.generic "store error") { w with attempts := w.attempts + 1 } := by
  obtain ⟨op, rest, heq, -⟩ := persist_eq env u w
  rw [heq]
  exact bind_error_iff.2 (.inl (by simp [attemptUpdate, hfake, attempt, hfails]))

end Persisting

/-! ## Persisting with a merge -/

/-- The wallet once it has stored an update under the next index. -/
def Wollet.stored (env : Env) (u : Update) (w : Wollet) : Wollet :=
  (w.did (.putUpdate (updateKey w.nextUpdateIndex)
    ((u.cleared env).serialize env.codecs))).withIndex (w.nextUpdateIndex + 1)

section Merging

variable {env : Env} {u : Update} {w w' : Wollet} {n i : Nat}

/-- A `FakeStore` has nothing to merge. -/
theorem persist_fake (hfake : env.fakeUpdatesStore = true)
    (hlt : ∃ threshold, env.mergeThreshold = some threshold ∧ threshold < w.nextUpdateIndex + 1) :
    persist env u w = .error (.generic "expected update 0 to exist")
      (w.withIndex (w.nextUpdateIndex + 1)) := by
  obtain ⟨threshold, hthreshold, hlt⟩ := hlt
  simp only [persist, get_bind, coalesce, getUpdate, hfake, if_true, ite_self, persistNext,
    setUpdate, attemptUpdate, pure_bind, mergeUpdates_due hthreshold hlt, mergeStored, readMerged,
    expectUpdate]
  rfl

theorem mergeFrom_ok_iff (f : Update → Update) :
    (∃ r, (expectUpdate env w i >>= fun u => mergeFrom env w n (i + 1) (f u)) = .ok r) ↔
      ∀ j ∈ List.range' i (n + 1), ∃ u, getUpdate env w j = .ok (some u) := by
  induction n generalizing i f with
  | zero => simp [mergeFrom, except_bind_ok_iff, expectUpdate_ok_iff]
  | succ n ih =>
    rw [List.range'_succ, List.forall_mem_cons]
    constructor
    · rintro ⟨r, h⟩
      obtain ⟨u, hu, hr⟩ := except_bind_ok_iff.1 h
      exact ⟨⟨u, expectUpdate_ok_iff.1 hu⟩, (ih _).1 ⟨r, hr⟩⟩
    · rintro ⟨⟨u, hu⟩, h⟩
      obtain ⟨r, hr⟩ := (ih (f u).merge).2 h
      exact ⟨r, except_bind_ok_iff.2 ⟨u, expectUpdate_ok_iff.2 hu, hr⟩⟩

/-- Updates are merged if all of them can be read. -/
theorem readMerged_ok_iff : (∃ merged, readMerged env w (n + 1) = .ok merged) ↔
    ∀ i < n + 1, ∃ u, getUpdate env w i = .ok (some u) := by
  simpa [readMerged, List.mem_range'_1] using mergeFrom_ok_iff (n := n) (i := 0) id

section Real

variable (hfake : env.fakeUpdatesStore = false)

include hfake

theorem persist_due (hworks : env.storeFails w.attempts = false) (hdue : MergeDue env w u) :
    persist env u w = (mergeStored env (w.nextUpdateIndex + 1) >>= fun next =>
      modify fun w => w.withIndex next) (w.stored env u) := by
  obtain ⟨hc, threshold, hthreshold, hlt⟩ := hdue
  have hset : setUpdate env w.nextUpdateIndex (u.cleared env) w = _ :=
    attemptUpdate_real hfake hworks _
  rw [persist, get_bind, hc, ← mergeUpdates_due hthreshold hlt]
  simp only [persistNext, get_bind]
  rw [run_bind, hset]
  rfl

theorem persist_reads (h : ∃ w', persist env u w = .ok () w')
    (hworks : env.storeFails w.attempts = false) (hdue : MergeDue env w u) :
    ∀ i < w.nextUpdateIndex + 1, ∃ u', getUpdate env (w.stored env u) i = .ok (some u') := by
  obtain ⟨w', h⟩ := h
  rw [persist_due hfake hworks hdue] at h
  obtain ⟨_, _, hmerge, -⟩ := bind_ok_iff.1 h
  obtain ⟨merged, hread, -⟩ := liftExcept_bind_ok_iff.1 (get_bind_ok_iff.1 hmerge)
  exact readMerged_ok_iff.1 ⟨merged, hread⟩

/-- **Without the last update no merge succeeds.** -/
theorem persist_lost (hworks : env.storeFails w.attempts = false)
    (hlt : ∃ threshold, env.mergeThreshold = some threshold ∧ threshold < w.nextUpdateIndex + 1)
    (hnext : w.nextUpdateIndex = n + 1) (hgone : getUpdate env w n = .ok none) :
    ¬ ∃ w', persist env u w = .ok () w' := by
  intro h
  have hc : coalesce env w u = none := by simp [coalesce, hnext, hgone]
  obtain ⟨u', hu'⟩ := persist_reads hfake h hworks ⟨hc, hlt⟩ n (by omega)
  have hkey : updateKey n ≠ updateKey w.nextUpdateIndex := fun hkey => by
    have := updateKey_injective hkey
    omega
  have hupdates : (w.stored env u).disk.updates = w.disk.updates.insert _ _ := rfl
  rw [getUpdate, hupdates, AList.lookup_insert_ne hkey, ← getUpdate, hgone] at hu'
  cases hu'

/-- A merge that fails after its first removal has lost the last update. -/
theorem mergeStored_loses (hread : ∀ i < n + 1, ∃ u, getUpdate env w i = .ok (some u))
    (hcut : ∀ i, env.storeFails i = decide (i = w.attempts + 1)) :
    ∃ e w', mergeStored env (n + 1) w = .error e w' ∧ w'.nextUpdateIndex = w.nextUpdateIndex ∧
      getUpdate env w' n = .ok none := by
  obtain ⟨merged, hread⟩ := readMerged_ok_iff.2 hread
  let w₁ := w.did (.removeUpdate (updateKey n))
  have hremove : removeUpdate env n w = .ok () w₁ := attemptUpdate_real hfake (by simp [hcut]) _
  have hfails (op : StoreOp) : attemptUpdate env op w₁ =
      .error (.generic "store error") { w₁ with attempts := w₁.attempts + 1 } := by
    simp [attemptUpdate, hfake, attempt, hcut, w₁, Wollet.did]
  have hrest : (removeDown env n >>= fun _ => setUpdate env 0 merged >>= fun _ => pure 1) w₁ =
      .error (.generic "store error") { w₁ with attempts := w₁.attempts + 1 } := by
    cases n with
    | zero => exact bind_error_iff.2 (.inr ⟨(), w₁, rfl, bind_error_iff.2 (.inl (hfails _))⟩)
    | succ n => exact bind_error_iff.2 (.inl (bind_error_iff.2 (.inl (hfails _))))
  have hmerge : mergeStored env (n + 1) w = _ := liftExcept_bind_error_iff.2 (.inr ⟨merged, hread,
    (congrFun (bind_assoc ..) w).trans (bind_error_iff.2 (.inr ⟨(), w₁, hremove, hrest⟩))⟩)
  refine ⟨_, _, hmerge, rfl, ?_⟩
  simp [getUpdate, w₁, Wollet.did, StoreOp.run]

end Real

end Merging

/-! ## What an update brings -/

/-- The transactions are listed in the order of their heights. -/
def Cache.Ordered (c : Cache) : Prop := c.sortedTxids = rebuildSortedTxids c.heights

namespace Update

variable (env : Env) (u : Update) (scripts : List ScriptEntry) (c : Cache) (store : TxsStore)

/-- What an outpoint is in the unspent map afterwards: as the server says, or after the edits for
the new and the deleted transactions. -/
def unspentAt (o : OutPoint) : Option Script :=
  let txs := u.newTxs.txs
  if env.utxoOnly then
    if o ∈ u.unspent then (c.unspent.lookup o).or (outpointScript store txs o) else none
  else if Removes store u.txidHeightNew u.txidHeightDelete txs o then none
  else if Adds c store u.txidHeightNew u.txidHeightDelete txs o then
    (c.myScript store txs o).or (c.unspent.lookup o)
  else c.unspent.lookup o

/-- The wallet has the tip, outputs, scripts and transactions of the update. -/
structure Staged : Prop where
  tip : u.tip = defaultBlockheader ∨ c.tip = (u.tip.height, env.blockHash u.tip)
  unblinded : c.unblinded.Has u.newTxs.unblinds
  paths : c.paths.Has (pathsOf scripts)
  scripts : c.scripts.Has (scripts.map fun e => ((e.1, e.2.1), (e.2.2.1, e.2.2.2)))
  txids : ∀ t ∈ u.newTxs.txs, t.1 ∈ c.txids

/-- The wallet has its heights, unspent outputs, timestamps and indexes. -/
structure Refreshed : Prop where
  heights : c.heights.Has u.txidHeightNew
  deleted : ∀ t ∈ u.txidHeightDelete, t ∈ c.heights → t ∈ u.txidHeightNew.map (·.1)
  ordered : c.Ordered
  unspent : ∀ o, u.unspentAt env c store o = c.unspent.lookup o
  timestamps : c.timestamps.Has u.timestamps
  lastUnused : 4 ≤ u.version → ∀ chain, u.lastUnused.get chain ≤ c.lastUnusedOf chain
  lastUsed : ¬ 4 ≤ u.version → ∀ chain,
    ∀ i ∈ c.lastUsed chain ((u.txidHeightNew.map (·.1) ++ u.txidHeightDelete).filterMap
      (txAsFallback store u.newTxs.txs)), i + 1 ≤ c.lastUnusedOf chain

end Update

/-- The cache when the transaction store has taken the transactions, before the list of txids is
written. -/
def Cache.halfway (env : Env) (u : Update) (scripts : List ScriptEntry) (c : Cache) : Cache :=
  { c.stage env u scripts with txids := c.txids ∪ (u.newTxs.txs.map Prod.fst).toFinset }

section Brings

variable {env : Env} {u : Update} {scripts : List ScriptEntry} {c : Cache} {store : TxsStore}

theorem halfway_same_iff : (c.halfway env u scripts).Same c ↔ u.Staged env scripts c := by
  have htip : (if u.tip ≠ defaultBlockheader then (u.tip.height, env.blockHash u.tip) else c.tip) =
      c.tip ↔ u.tip = defaultBlockheader ∨ c.tip = (u.tip.height, env.blockHash u.tip) := by
    by_cases h : u.tip = defaultBlockheader <;> simp [h, eq_comm]
  have htxids : c.txids ∪ (u.newTxs.txs.map Prod.fst).toFinset = c.txids ↔
      ∀ t ∈ u.newTxs.txs, t.1 ∈ c.txids := by
    rw [Finset.union_eq_left, Finset.subset_iff]
    simp
  constructor
  · intro h
    exact ⟨htip.1 h.tip, same_extend_iff.1 h.unblinded, same_extend_iff.1 h.paths,
      same_extend_iff.1 h.scripts, htxids.1 h.txids⟩
  · intro h
    exact ⟨htxids.2 h.txids, same_extend_iff.2 h.paths, same_extend_iff.2 h.scripts,
      .refl _, rfl, .refl _, same_extend_iff.2 h.unblinded, htip.2 h.tip, .refl _, rfl, rfl⟩

theorem txAsFallback_extend (store : TxsStore) (txs : List (Txid × Transaction)) :
    txAsFallback (store.extend txs) txs = txAsFallback store txs := by
  funext t
  unfold txAsFallback
  cases hfind : txs.find? fun e => e.1 = t with
  | some e => rfl
  | none =>
    have hnone : HashMap.lastValue t txs = none :=
      lastValue_eq_none.2 fun e he h => by simpa [h] using List.find?_eq_none.1 hfind e he
    rw [lookup_extend, hnone, Option.none_or]

theorem lookup_unspent_applied (h : u.Staged env scripts c) (o : OutPoint) :
    (c.applied env u scripts (store.extend u.newTxs.txs)).unspent.lookup o =
      u.unspentAt env c store o := by
  have hlookup (t : Txid) :
      (txAsFallback (store.extend u.newTxs.txs) u.newTxs.txs t).map Transaction.stripped =
        (txAsFallback store u.newTxs.txs t).map Transaction.stripped := by
    rw [txAsFallback_extend]
  have hhalf := halfway_same_iff.2 h
  rw [applied_unspent, Update.unspentAt]
  split
  · rw [updateUnspentUtxosOnly_congr (.refl _) (fun o _ => hlookup o.txid) o,
      lookup_updateUnspentUtxosOnly]
  · exact (updateUnspent_congr hhalf.paths hhalf.unblinded (.refl _) (fun t _ => hlookup t)
      (fun t _ => hlookup t) (fun o _ => hlookup o.txid) o).trans (lookup_updateUnspent _ _ o)

theorem same_updateHeights_iff {heights : HashMap Txid (Option Height)}
    {new : List (Txid × Option Height)} {del : List Txid} :
    HashMap.Same (updateHeights heights new del) heights ↔
      heights.Has new ∧ ∀ t ∈ del, t ∈ heights → t ∈ new.map (·.1) := by
  constructor
  · intro h
    refine ⟨fun t v hv => ?_, fun t hdel ht => ?_⟩
    · rw [← h t, updateHeights, lookup_extend, hv]
      rfl
    · exact (mem_updateHeights.1 ((h.mem t).2 ht)).resolve_right fun hn => hn.2 hdel
  · rintro ⟨hnew, hdel⟩ t
    rw [updateHeights, lookup_extend, lookup_retain_keys]
    cases hv : HashMap.lastValue t new with
    | some v => exact (hnew t v hv).symm
    | none =>
      cases ht : heights.lookup t with
      | none => simp
      | some v =>
        have hkeep : t ∉ del := fun hd => by
          have hmem := mem_keys_iff.1 (hdel t hd (mem_iff.2 ⟨v, ht⟩))
          simp [hv] at hmem
        simp [hkeep]

theorem max_eq_left_iff_u32 {a b : UInt32} : max a b = a ↔ b ≤ a := by
  simp only [Max.max]
  grind

theorem fetchMaxAfter_eq_iff {a : UInt32} {last : Option UInt32} :
    fetchMaxAfter a last = a ↔ ∀ i ∈ last, i + 1 ≤ a := by
  cases last with
  | none => simp [fetchMaxAfter]
  | some i => simp [fetchMaxAfter, max_eq_left_iff_u32]

theorem lastUnusedOf_applied_iff (h : u.Staged env scripts c) (chain : Chain) :
    (c.applied env u scripts (store.extend u.newTxs.txs)).lastUnusedOf chain =
        c.lastUnusedOf chain ↔
      (4 ≤ u.version → u.lastUnused.get chain ≤ c.lastUnusedOf chain) ∧
      (¬ 4 ≤ u.version → ∀ i ∈ c.lastUsed chain ((u.txidHeightNew.map (·.1) ++
        u.txidHeightDelete).filterMap (txAsFallback store u.newTxs.txs)),
          i + 1 ≤ c.lastUnusedOf chain) := by
  have hpaths : HashMap.Same (c.stage env u scripts).paths c.paths := (halfway_same_iff.2 h).paths
  rw [applied_lastUnusedOf, txAsFallback_extend, lastUsed_same hpaths]
  by_cases hv : 4 ≤ u.version
  · simp only [hv, if_true, max_eq_left_iff_u32, true_imp_iff, not_true, false_imp_iff, and_true]
  · simp only [hv, if_false, fetchMaxAfter_eq_iff, not_false_iff, true_imp_iff, false_imp_iff,
      true_and]

/-- **An update changes nothing exactly if the wallet has all it brings.** -/
theorem same_applied_iff : (c.applied env u scripts (store.extend u.newTxs.txs)).Same c ↔
    u.Staged env scripts c ∧ u.Refreshed env c store := by
  constructor
  · intro h
    have hunspent := h.unspent
    have hexternal := h.lastUnusedExternal
    have hinternal := h.lastUnusedInternal
    rw [applied_eq] at h
    have hstaged : u.Staged env scripts c := halfway_same_iff.1
      ⟨h.txids, h.paths, h.scripts, .refl _, rfl, .refl _, h.unblinded, h.tip, .refl _, rfl, rfl⟩
    have hindex (chain : Chain) := (lastUnusedOf_applied_iff hstaged chain).1
      (lastUnusedOf_congr hexternal hinternal chain)
    obtain ⟨hnew, hdel⟩ := same_updateHeights_iff.1 h.heights
    exact ⟨hstaged, hnew, hdel, h.sortedTxids.symm.trans (rebuildSortedTxids_same h.heights),
      fun o => (lookup_unspent_applied hstaged o).symm.trans (hunspent o),
      same_extend_iff.1 h.timestamps, fun hv chain => (hindex chain).1 hv,
      fun hv chain => (hindex chain).2 hv⟩
  · rintro ⟨hstaged, h⟩
    have hhalf := halfway_same_iff.2 hstaged
    have hheights := same_updateHeights_iff.2 ⟨h.heights, h.deleted⟩
    have hunspent (o : OutPoint) := (lookup_unspent_applied hstaged o).trans (h.unspent o)
    have hindex (chain : Chain) := (lastUnusedOf_applied_iff hstaged chain).2
      ⟨fun hv => h.lastUnused hv chain, fun hv => h.lastUsed hv chain⟩
    rw [applied_eq] at hunspent ⊢
    exact ⟨hhalf.txids, hhalf.paths, hhalf.scripts, hheights,
      (rebuildSortedTxids_same hheights).trans h.ordered.symm, hunspent, hhalf.unblinded, hhalf.tip,
      same_extend_iff.2 h.timestamps, hindex .external, hindex .internal⟩

end Brings

/-! ## Storing transactions -/

section Halfway

variable {env : Env} {u : Update} {scripts : List ScriptEntry} {w w' : Wollet} {e : Error}
  {txs : List (Txid × Transaction)}

/-- What storing transactions leaves alone. -/
def Wollet.untouched (w : Wollet) :
    HashMap Txid (Option Height) × List Txid × HashMap String Bytes × Nat :=
  (w.cache.heights, w.cache.sortedTxids, w.disk.updates, w.nextUpdateIndex)

theorem extendAllTxs_preserves (txs : List (Txid × Transaction)) :
    Preserves Wollet.untouched (extendAllTxs env txs) := by
  have hput : Preserves Wollet.untouched (putTxs env txs) := by
    induction txs with
    | nil => exact .pure ()
    | cons t txs ih =>
      exact (attempt_preserves (fun _ _ => rfl) (fun _ _ _ => rfl) _).bind fun _ =>
        .bind (.modify fun _ => rfl) fun _ => ih
  refine hput.bind fun _ => .bind .get fun w => ?_
  split
  · exact .pure ()
  · exact attempt_preserves (fun _ _ => rfl) (fun _ _ _ => rfl) _

theorem putTxs_error (hknown : ∀ t ∈ txs, t.1 ∈ w.cache.txids)
    (h : putTxs env txs w = .error e w') : w'.cache = w.cache := by
  induction txs generalizing w with
  | nil => cases h
  | cons t txs ih =>
    obtain ⟨txid, tx⟩ := t
    rw [List.forall_mem_cons] at hknown
    have hkept : Preserves Wollet.cache (attempt env .storeError (.putTx txid tx)) :=
      attempt_preserves (fun _ _ => rfl) (fun _ _ _ => rfl) _
    rcases bind_error_iff.1 h with hput | ⟨_, w₁, hput, h⟩
    · exact hkept.error hput
    · have hcache : w₁.cache = w.cache := hkept.ok hput
      rcases bind_error_iff.1 h with h | ⟨_, w₂, hmodify, h⟩
      · cases h
      · have hsame : w₂.cache = w.cache := by
          rw [← modify_ok_iff.1 hmodify, hcache]
          simp only [Finset.insert_eq_of_mem hknown.1]
        rw [ih (by rw [hsame]; exact hknown.2) h, hsame]

theorem extendAllTxs_error (hknown : ∀ t ∈ txs, t.1 ∈ w.cache.txids)
    (h : extendAllTxs env txs w = .error e w') : w'.cache = w.cache := by
  rcases bind_error_iff.1 h with hput | ⟨_, w₁, hput, h⟩
  · exact putTxs_error hknown hput
  · have hcache : w₁.cache = w.cache := by
      have hsub : (txs.map Prod.fst).toFinset ⊆ w.cache.txids := by
        intro t ht
        obtain ⟨p, hp, rfl⟩ := List.mem_map.1 (List.mem_toFinset.1 ht)
        exact hknown p hp
      rw [putTxs_ok hput, Wollet.extended]
      simp only [Finset.union_eq_left.2 hsub]
    rcases bind_error_iff.1 h with h | ⟨w₀, w₂, hget, h⟩
    · cases h
    · obtain ⟨rfl, rfl⟩ := get_ok_iff.1 hget
      split at h
      · cases h
      · have hkept : Preserves Wollet.cache (attempt env .storeError (.putTxids w₁.cache.txids)) :=
          attempt_preserves (fun _ _ => rfl) (fun _ _ _ => rfl) _
        rw [hkept.error h, hcache]

theorem applyUpdateInner_error (h : applyUpdateInner env u w = .error e w') :
    w' = w ∨ ∃ scripts, Accepts env u w.cache scripts ∧
      extendAllTxs env u.newTxs.txs { w with cache := w.cache.stage env u scripts } =
        .error e w' := by
  rw [applyUpdateInner, get_bind] at h
  rcases ensureElse_bind_error_iff.1 h with ⟨-, -, rfl⟩ | ⟨hst, h⟩
  · exact .inl rfl
  rcases liftExcept_bind_error_iff.1 h with ⟨-, rfl⟩ | ⟨scripts, hsc, h⟩
  · exact .inl rfl
  rcases ensureElse_bind_error_iff.1 h with ⟨-, -, rfl⟩ | ⟨ht, h⟩
  · exact .inl rfl
  rw [modify_bind] at h
  rcases bind_error_iff.1 h with h | ⟨_, _, _, h⟩
  · exact .inr ⟨scripts, ⟨of_decide_eq_true hst, hsc, of_decide_eq_true ht⟩, h⟩
  · cases h

theorem applyUpdateInner_error_of_accepts (ha : Accepts env u w.cache scripts)
    (h : extendAllTxs env u.newTxs.txs { w with cache := w.cache.stage env u scripts } =
      .error e w') : applyUpdateInner env u w = .error e w' := by
  rw [applyUpdateInner, get_bind]
  refine ensureElse_bind_error_iff.2 (.inr ⟨decide_eq_true ha.status, ?_⟩)
  refine liftExcept_bind_error_iff.2 (.inr ⟨scripts, ha.scripts, ?_⟩)
  refine ensureElse_bind_error_iff.2 (.inr ⟨decide_eq_true ha.tip, ?_⟩)
  rw [modify_bind]
  exact bind_error_iff.2 (.inl h)

theorem extendAllTxs_fails_last (htxs : txs ≠ [])
    (hlast : ∀ n, env.storeFails n = decide (n = w.attempts + txs.length)) :
    ∃ w', extendAllTxs env txs w = .error .storeError w' ∧
      w'.cache = { w.cache with txids := w.cache.txids ∪ (txs.map Prod.fst).toFinset } := by
  have hput : putTxs env txs w = .ok () (w.extended txs) := by
    refine putTxs_eq fun n _ hlt => ?_
    rw [hlast, decide_eq_false_iff_not]
    omega
  have hfails : env.storeFails (w.extended txs).attempts = true := by
    rw [hlast]
    exact decide_eq_true rfl
  refine ⟨{ w.extended txs with attempts := (w.extended txs).attempts + 1 }, ?_, rfl⟩
  refine bind_error_iff.2 (.inr ⟨(), _, hput, bind_error_iff.2 (.inr ⟨_, _, rfl, ?_⟩)⟩)
  have hne : txs.isEmpty = false := List.isEmpty_eq_false_iff.2 htxs
  simp only [hne, Bool.false_eq_true, if_false, attempt, hfails, if_true]

end Halfway

/-! ## The condition -/

/-- If the update is accepted, persisting it starts no merge, and the wallet has what it brings
before a store that may fail has done its part. -/
def Safe (env : Env) (u : Update) (w : Wollet) : Prop :=
  ∀ scripts, Accepts env u w.cache scripts → ¬ MergeDue env w u ∧
    (u.newTxs.txs ≠ [] ∨ env.fakeUpdatesStore = false → u.Staged env scripts w.cache) ∧
    (env.fakeUpdatesStore = false → u.Refreshed env w.cache w.disk.txs)

section Condition

variable {env : Env} {u : Update} {w w' : Wollet} {scripts : List ScriptEntry} {e : Error}

theorem accepts_failing {fails : Nat → Bool} {c : Cache} :
    Accepts (env.failing fails) u c scripts ↔ Accepts env u c scripts :=
  ⟨fun ha => ⟨ha.status, ha.scripts, ha.tip⟩, fun ha => ⟨ha.status, ha.scripts, ha.tip⟩⟩

theorem applyUpdate_again (ha : Accepts env u w.cache scripts) (hdue : ¬ MergeDue env w u)
    (hsame : w'.cache.Same w.cache) (hupdates : w'.disk.updates = w.disk.updates)
    (hindex : w'.nextUpdateIndex = w.nextUpdateIndex) :
    ∃ w'', applyUpdate env.recovered u w' = .ok () w'' := by
  have hget : getUpdate env w' = getUpdate env w := by
    funext i
    rw [getUpdate, getUpdate, hupdates]
  have hcongr : coalesce env w' u = coalesce env w u := by
    rw [coalesce, coalesce, hget, hindex]
  have hdue' : ¬ MergeDue env.recovered (w'.applied env.recovered u scripts) u := by
    rintro ⟨hc, hmerge⟩
    exact hdue ⟨hcongr.symm.trans hc, hindex ▸ hmerge⟩
  obtain ⟨w'', hpersist⟩ := persist_succeeds (fun _ => rfl) hdue'
  refine ⟨w'', bind_ok_iff.2 ⟨(), _, ?_, hpersist⟩⟩
  exact applyUpdateInner_eq (fun _ _ _ => rfl) (accepts_failing.2 (ha.same hsame.symm))

theorem failsCleanly_of_safe (h : Safe env u w) (fails : Nat → Bool) :
    FailsCleanly env (∃ scripts, Accepts env u w.cache scripts) u
      (applyUpdate (env.failing fails) u) w := by
  intro e w' herror
  suffices hkept : w'.cache.Same w.cache ∧ w'.disk.updates = w.disk.updates ∧
      w'.nextUpdateIndex = w.nextUpdateIndex from
    ⟨hkept.1, fun ⟨_, ha⟩ => applyUpdate_again ha (h _ ha).1 hkept.1 hkept.2.1 hkept.2.2⟩
  rcases bind_error_iff.1 herror with hinner | ⟨_, w₁, hinner, hpersist⟩
  · rcases applyUpdateInner_error hinner with rfl | ⟨scripts, ha, hextend⟩
    · exact ⟨.refl _, rfl, rfl⟩
    · have htxs : u.newTxs.txs ≠ [] := by
        intro hnil
        rw [hnil] at hextend
        cases hextend
      have hstaged := (h scripts (accepts_failing.1 ha)).2.1 (.inl htxs)
      have hhalf := halfway_same_iff.2 hstaged
      have hcache := extendAllTxs_error
        (w := { w with cache := w.cache.stage (env.failing fails) u scripts }) hstaged.txids hextend
      have hkept := (extendAllTxs_preserves _).error hextend
      simp only [Wollet.untouched, Prod.mk.injEq] at hkept
      refine ⟨?_, hkept.2.2⟩
      rw [hcache]
      exact ⟨rfl, hhalf.paths, hhalf.scripts, .refl _, rfl, .refl _, hhalf.unblinded, hhalf.tip,
        .refl _, rfl, rfl⟩
  · obtain ⟨scripts, ha, rfl⟩ := applyUpdateInner_ok hinner
    obtain ⟨hdue, hstaged, hrefreshed⟩ := h scripts (accepts_failing.1 ha)
    have hdue' : ¬ MergeDue (env.failing fails) (w.applied (env.failing fails) u scripts) u := hdue
    obtain ⟨hfake, rfl⟩ := persist_error hdue' hpersist
    have hsame : (w.cache.applied env u scripts (w.disk.txs.extend u.newTxs.txs)).Same w.cache :=
      same_applied_iff.2 ⟨hstaged (.inr hfake), hrefreshed hfake⟩
    exact ⟨hsame, rfl, rfl⟩

section Cleanly

variable (h : ∀ fails, FailsCleanly env (∃ scripts, Accepts env u w.cache scripts) u
  (applyUpdate (env.failing fails) u) w)

include h

theorem persist_again {fails : Nat → Bool} (ha : Accepts env u w.cache scripts)
    (hworks : ∀ n < (w.applied env u scripts).attempts, fails n = false)
    (hpersist : persist (env.failing fails) u (w.applied env u scripts) = .error e w') :
    w'.cache.Same w.cache ∧
      ∃ s w'', persist env.recovered u (w'.applied env.recovered u s) = .ok () w'' := by
  have hinner : applyUpdateInner (env.failing fails) u w = .ok () (w.applied env u scripts) :=
    applyUpdateInner_eq (fun n _ => hworks n) (accepts_failing.2 ha)
  obtain ⟨hsame, hagain⟩ := h fails e w' (bind_error_iff.2 (.inr ⟨(), _, hinner, hpersist⟩))
  obtain ⟨w'', hagain⟩ := hagain ⟨scripts, ha⟩
  obtain ⟨s, -, hagain⟩ := applyUpdate_persist hagain
  exact ⟨hsame, s, w'', hagain⟩

/-- **A failure can make a merge impossible**: whether the update store is a `FakeStore`, or a
removal has been done and the next operation fails. -/
theorem not_mergeDue_of_failsCleanly (ha : Accepts env u w.cache scripts) : ¬ MergeDue env w u := by
  intro hdue
  obtain ⟨threshold, hthreshold, hlt⟩ := hdue.2
  let w₀ := w.applied env u scripts
  cases hfake : env.fakeUpdatesStore with
  | true =>
    have hfake' : env.recovered.fakeUpdatesStore = true := hfake
    obtain ⟨-, s, w'', hagain⟩ := persist_again h ha (fun _ _ => rfl) (persist_fake hfake' hdue.2)
    rw [persist_fake hfake' ⟨threshold, hthreshold, Nat.lt_succ_of_lt hlt⟩] at hagain
    cases hagain
  | false =>
    have hreal (fails : Nat → Bool) : (env.failing fails).fakeUpdatesStore = false := hfake
    -- the updates can be merged, as the retry does after the first write has failed
    obtain ⟨-, s, hagain⟩ := persist_again h ha (fun n hlt => decide_eq_false hlt.ne)
      (persist_fails (hreal fun n => n = w₀.attempts) (decide_eq_true rfl))
    have hread := persist_reads (hreal _) hagain rfl hdue
    let fails (n : Nat) := decide (n = w₀.attempts + 2)
    obtain ⟨e, w', hmerge, hnext, hgone⟩ := mergeStored_loses (w := w₀.stored env u)
      (hreal fails) hread fun _ => rfl
    have hpersist : persist (env.failing fails) u w₀ = .error e w' := by
      rw [persist_due (w := w₀) (hreal fails) (decide_eq_false (by omega)) hdue]
      exact bind_error_iff.2 (.inl hmerge)
    obtain ⟨-, s, hagain⟩ := persist_again h ha
      (fun n hlt => decide_eq_false (Nat.lt_add_right 2 hlt).ne) hpersist
    exact absurd hagain (persist_lost (hreal _) rfl
      ⟨threshold, hthreshold, hnext ▸ Nat.lt_succ_of_lt hlt⟩ hnext hgone)

theorem safe_of_failsCleanly : Safe env u w := by
  intro scripts ha
  have hreal (hfake : env.fakeUpdatesStore = false) :
      u.Staged env scripts w.cache ∧ u.Refreshed env w.cache w.disk.txs := by
    let w₀ := w.applied env u scripts
    let fails : Nat → Bool := fun n => decide (n = w₀.attempts)
    have hpersist : persist (env.failing fails) u w₀ = _ :=
      persist_fails (show (env.failing fails).fakeUpdatesStore = false from hfake)
        (decide_eq_true rfl)
    exact same_applied_iff.1 (persist_again h ha (fun n hlt => decide_eq_false hlt.ne) hpersist).1
  refine ⟨not_mergeDue_of_failsCleanly h ha, ?_, fun hfake => (hreal hfake).2⟩
  rintro (htxs | hfake)
  · let staged : Wollet := { w with cache := w.cache.stage env u scripts }
    let fails : Nat → Bool := fun n => decide (n = w.attempts + u.newTxs.txs.length)
    have hlast : ∀ n, (env.failing fails).storeFails n =
      decide (n = staged.attempts + u.newTxs.txs.length) := fun _ => rfl
    obtain ⟨w', herror, hcache⟩ := extendAllTxs_fails_last htxs hlast
    have hinner := applyUpdateInner_error_of_accepts (accepts_failing.2 ha) herror
    have hsame := (h fails _ w' (bind_error_iff.2 (.inl hinner))).1
    rw [hcache] at hsame
    exact halfway_same_iff.1 hsame
  · exact (hreal hfake).1

end Cleanly

end Condition

/-! ## Applying a transaction -/

/-- The update that `apply_transaction` makes is safe, and all that is unspent then can be listed. -/
def SafeTransaction (env : Env) (tx : Transaction) (w : Wollet) : Prop :=
  let u := transactionUpdate env w tx
  (∃ b, w.cache.balance env = .ok b) → Safe env u w ∧
    ∀ o s, u.unspentAt env w.cache w.disk.txs o = some s → ∃ coin, w.cache.utxoAt (o, s) = .ok coin

section Transaction

variable {env : Env} {tx : Transaction} {w w' : Wollet} {c c' : Cache} {e : Error}

theorem balance_ok_iff : (∃ b, c.balance env = .ok b) ↔
    ∀ o s, c.unspent.lookup o = some s → ∃ coin, c.utxoAt (o, s) = .ok coin := by
  constructor
  · rintro ⟨b, h⟩ o s hs
    obtain ⟨utxos, hutxos, -⟩ := except_bind_ok_iff.1 h
    obtain ⟨inner, hinner, -⟩ := except_bind_ok_iff.1 hutxos
    exact mapM_ok_forall hinner (o, s) (mem_toPairs.2 hs)
  · intro h
    obtain ⟨inner, hinner⟩ : ∃ inner, c.utxosInner = .ok inner :=
      mapM_ok_of_forall fun p hp => h p.1 p.2 (mem_toPairs.1 hp)
    exact ⟨_, except_bind_ok_iff.2 ⟨_, except_bind_ok_iff.2 ⟨inner, hinner, rfl⟩, rfl⟩⟩

theorem utxoAt_ok_congr {p : OutPoint × Script} (h : ∃ coin, c.utxoAt p = .ok coin)
    (hunblinded : HashMap.Same c.unblinded c'.unblinded) (hpaths : HashMap.Same c.paths c'.paths)
    (hscripts : HashMap.Same c.scripts c'.scripts) : ∃ coin, c'.utxoAt p = .ok coin := by
  obtain ⟨coin, h⟩ := h
  obtain ⟨-, -, hsecrets, hindex, haddress⟩ := utxoAt_ok h
  rw [hunblinded] at hsecrets
  rw [index, hpaths, ← index] at hindex
  rw [blindingPubkeyOf, hscripts, ← blindingPubkeyOf] at haddress
  refine ⟨{ coin with outpoint := p.1, scriptPubkey := p.2, isSpent := false,
                      height := (c'.heights.lookup p.1.txid).getD none }, ?_⟩
  simp only [utxoAt, hsecrets, hindex, pure_bind, haddress]
  rfl

theorem balance_applied_iff {u : Update} {scripts : List ScriptEntry} {store : TxsStore}
    (h : u.Staged env scripts c) :
    (∃ b, (c.applied env u scripts (store.extend u.newTxs.txs)).balance env = .ok b) ↔
      ∀ o s, u.unspentAt env c store o = some s → ∃ coin, c.utxoAt (o, s) = .ok coin := by
  have hhalf := halfway_same_iff.2 h
  simp only [balance_ok_iff, lookup_unspent_applied h]
  rw [applied_eq]
  refine forall₃_congr fun o s _ => ⟨fun h => ?_, fun h => ?_⟩
  · exact utxoAt_ok_congr h hhalf.unblinded hhalf.paths hhalf.scripts
  · exact utxoAt_ok_congr h hhalf.unblinded.symm hhalf.paths.symm hhalf.scripts.symm

theorem applyTransaction_error_iff : applyTransaction env tx w = .error e w' ↔
    (w.cache.balance env = .error e ∧ w = w') ∨ ∃ b, w.cache.balance env = .ok b ∧
      (applyUpdate env (transactionUpdate env w tx) w = .error e w' ∨
        applyUpdate env (transactionUpdate env w tx) w = .ok () w' ∧
          w'.cache.balance env = .error e) := by
  rw [applyTransaction, get_bind, liftExcept_bind_error_iff]
  refine or_congr_right (exists_congr fun b => and_congr_right fun _ => ?_)
  rw [bind_error_iff]
  refine or_congr_right ⟨?_, fun ⟨happly, hb⟩ => ⟨(), w', happly, ?_⟩⟩
  · rintro ⟨_, w₁, happly, h⟩
    rw [get_bind] at h
    rcases liftExcept_bind_error_iff.1 h with ⟨hb, rfl⟩ | ⟨_, _, h⟩
    · exact ⟨happly, hb⟩
    · cases h
  · rw [get_bind]
    exact liftExcept_bind_error_iff.2 (.inl ⟨hb, rfl⟩)

theorem transactionUpdate_accepted (env : Env) (w : Wollet) (tx : Transaction) :
    Accepts env (transactionUpdate env w tx) w.cache [] :=
  ⟨.inr rfl, rfl, .inl rfl⟩

theorem transactionUpdate_applied (h : applyUpdate env (transactionUpdate env w tx) w = .ok () w') :
    w'.cache = w.cache.applied env (transactionUpdate env w tx) []
      (w.disk.txs.extend (transactionUpdate env w tx).newTxs.txs) := by
  obtain ⟨scripts, ha, hcache, -⟩ := applyUpdate_ok h
  obtain rfl : scripts = [] := (Except.ok.inj ha.scripts).symm
  exact hcache

theorem Safe.staged (h : Safe env (transactionUpdate env w tx) w) :
    (transactionUpdate env w tx).Staged env [] w.cache :=
  (h [] (transactionUpdate_accepted env w tx)).2.1 (.inl (List.cons_ne_nil _ _))

theorem failsCleanly_of_safeTransaction (h : SafeTransaction env tx w) (fails : Nat → Bool) :
    FailsCleanly env (∃ b, w.cache.balance env = .ok b) (transactionUpdate env w tx)
      (applyTransaction (env.failing fails) tx) w := by
  intro e w' herror
  rcases applyTransaction_error_iff.1 herror with ⟨hb, rfl⟩ | ⟨b, hb, hupdate | ⟨happly, hb'⟩⟩
  · exact ⟨.refl _, fun ⟨b, hok⟩ => absurd (hok.symm.trans hb) (by simp)⟩
  · obtain ⟨hsame, hagain⟩ := failsCleanly_of_safe (h ⟨b, hb⟩).1 fails e w' hupdate
    exact ⟨hsame, fun _ => hagain ⟨[], transactionUpdate_accepted env w tx⟩⟩
  · obtain ⟨hsafe, hlisted⟩ := h ⟨b, hb⟩
    obtain ⟨b', hok⟩ := (balance_applied_iff hsafe.staged).2 hlisted
    rw [transactionUpdate_applied happly] at hb'
    exact absurd (hok.symm.trans hb') (by simp)

theorem safeTransaction_of_failsCleanly (h : ∀ fails, FailsCleanly env
    (∃ b, w.cache.balance env = .ok b) (transactionUpdate env w tx)
      (applyTransaction (env.failing fails) tx) w) : SafeTransaction env tx w := by
  rintro ⟨b, hb⟩
  let u := transactionUpdate env w tx
  have hsafe : Safe env u w := safe_of_failsCleanly fun fails e w' herror => by
    obtain ⟨hsame, hagain⟩ :=
      h fails e w' (applyTransaction_error_iff.2 (.inr ⟨b, hb, .inl herror⟩))
    exact ⟨hsame, fun _ => hagain ⟨b, hb⟩⟩
  refine ⟨hsafe, (balance_applied_iff hsafe.staged).1 ?_⟩
  cases hfinal : (w.cache.applied env u [] (w.disk.txs.extend u.newTxs.txs)).balance env with
  | ok b' => exact ⟨b', rfl⟩
  | error e =>
    -- the update goes through, so it is the balance that fails, on a cache that is the same
    have ha := transactionUpdate_accepted env w tx
    obtain ⟨w', happly⟩ := applyUpdate_again ha (hsafe [] ha).1 (.refl w.cache) rfl rfl
    have hcache := transactionUpdate_applied happly
    have hsame := (h (fun _ => false) e w' (applyTransaction_error_iff.2
      (.inr ⟨b, hb, .inr ⟨happly, by rw [hcache]; exact hfinal⟩⟩))).1
    rw [hcache] at hsame
    obtain ⟨b', hok⟩ := (balance_applied_iff hsafe.staged).2 fun o s hs =>
      balance_ok_iff.1 ⟨b, hb⟩ o s (((same_applied_iff.1 hsame).2.unspent o).symm.trans hs)
    exact absurd (hok.symm.trans hfinal) (by simp)

end Transaction

/-- **Failed calls change nothing and can be repeated**, whatever the stores do, if and only if the
update is refused by a check, or no merge is due and the wallet has what it brings: the checks come
first, but nothing is taken back when a store fails. -/
theorem failed_calls_leave_cache_iff (env : Env) (w : Wollet) :
    (∀ u, (∀ fails, FailsCleanly env (∃ scripts, Accepts env u w.cache scripts) u
      (applyUpdate (env.failing fails) u) w) ↔ Safe env u w) ∧
    ∀ tx, (∀ fails, FailsCleanly env (∃ b, w.cache.balance env = .ok b)
      (transactionUpdate env w tx) (applyTransaction (env.failing fails) tx) w) ↔
        SafeTransaction env tx w :=
  ⟨fun _ => ⟨safe_of_failsCleanly, failsCleanly_of_safe⟩,
    fun _ => ⟨safeTransaction_of_failsCleanly, failsCleanly_of_safeTransaction⟩⟩

/-! ## An update that cannot be retried -/

namespace LostRetry

def env : Env :=
  Concrete.env (fun tx => BitVec.ofNat 256 (10 + tx.input.length + 2 * tx.output.length)) [[0x51]]

def after (r : EStateM.Result Error Wollet Unit) : Wollet :=
  match r with
  | .ok _ w => w
  | .error _ w => w

def wallet : Wollet :=
  after (applyUpdate env (transactionUpdate env (.fresh .empty) ⟨[], []⟩) (.fresh .empty))

def update : Update :=
  transactionUpdate env wallet ⟨[], [⟨.explicit 1, .explicit 5, .null, [0x51], none⟩]⟩

def failing : Env := env.failing fun n => n = 3

def failed : Wollet := after (applyUpdate failing update wallet)

def errorOf (r : EStateM.Result Error Wollet Unit) : Option Error :=
  match r with
  | .ok _ _ => none
  | .error e _ => some e

theorem eq_of_errorOf {r : EStateM.Result Error Wollet Unit} {e : Error}
    (h : errorOf r = some e) : r = .error e (after r) := by
  cases r with
  | ok _ w => cases h
  | error e w =>
    cases h
    rfl

/-- The cache has the new txid, so the status is another, and the stores may recover but the update
is refused. -/
theorem update_lost : applyUpdate failing update wallet = .error .storeError failed ∧
    ¬ failed.cache.Same wallet.cache ∧
      ∃ w, applyUpdate env update failed = .error (.updateOnDifferentStatus 2 1) w := by
  refine ⟨eq_of_errorOf (by decide), fun hsame => ?_, _, eq_of_errorOf (by decide)⟩
  have hcard : failed.cache.txids.card = 2 := by decide
  rw [hsame.txids] at hcard
  exact absurd hcard (by decide)

end LostRetry

end Swk
