import Swk.Funds
import Swk.Merge
import Swk.Restore

/-!
# Crashes

A wallet with a persisted transaction store writes every transaction there and strips it from the
update it logs; its update log is merged into one entry after every update. A crash cuts this
short after any operation on the stores.

Rebuilding from what survives replays the log on the surviving transactions. Three things decide
what comes out. The transactions an update is about have to be in the store by the time it is
logged (`Covered`), so that more transactions do not change what the update does. The merged entry
has to do what the updates did in sequence (`UnspentMerges`, and `CoalesceKeeps` where an entry is
overwritten). And the crash must not fall right after the new update was written and before it
is merged: that update carries the status of a cache with transactions, but the log replays
without any, so it is refused. Away from that point, every crash leaves a state that the wallet
had (`crash_recovers`).
-/

namespace Swk

open Cache List

/-! ## What a crash has to preserve -/

/-- Two caches agree on the wallet's transactions, outputs, paths, tip and indexes. -/
structure Cache.Agrees (c c' : Cache) : Prop where
  heights : HashMap.Same c.heights c'.heights
  unspent : HashMap.Same c.unspent c'.unspent
  unblinded : HashMap.Same c.unblinded c'.unblinded
  paths : HashMap.Same c.paths c'.paths
  tip : c.tip = c'.tip
  lastUnusedExternal : c.lastUnusedExternal = c'.lastUnusedExternal
  lastUnusedInternal : c.lastUnusedInternal = c'.lastUnusedInternal

theorem Cache.Agrees.refl (c : Cache) : c.Agrees c :=
  ⟨.refl _, .refl _, .refl _, .refl _, rfl, rfl, rfl⟩

variable {c c' : Cache}

theorem Cache.Agrees.symm (h : c.Agrees c') : c'.Agrees c :=
  ⟨h.heights.symm, h.unspent.symm, h.unblinded.symm, h.paths.symm, h.tip.symm,
    h.lastUnusedExternal.symm, h.lastUnusedInternal.symm⟩

theorem Cache.Agrees.trans {c'' : Cache} (h : c.Agrees c') (h' : c'.Agrees c'') :
    c.Agrees c'' :=
  ⟨h.heights.trans h'.heights, h.unspent.trans h'.unspent, h.unblinded.trans h'.unblinded,
    h.paths.trans h'.paths, h.tip.trans h'.tip,
    h.lastUnusedExternal.trans h'.lastUnusedExternal,
    h.lastUnusedInternal.trans h'.lastUnusedInternal⟩

theorem Cache.Same.agrees (h : c.Same c') : c.Agrees c' :=
  ⟨h.heights, h.unspent, h.unblinded, h.paths, h.tip, h.lastUnusedExternal, h.lastUnusedInternal⟩

/-- The update with other transactions at hand. -/
def Update.withTxs (u : Update) (txs : List (Txid × Transaction)) : Update :=
  { u with newTxs := { u.newTxs with txs := txs } }

/-- The transactions an update is about, on a cache. -/
def Concerns (c : Cache) (u : Update) (t : Txid) : Prop :=
  t ∈ u.txidHeightNew.map (·.1) ∨ t ∈ u.txidHeightDelete ∨ (∃ o ∈ c.unblinded, o.txid = t) ∨
    (∃ e ∈ u.newTxs.unblinds, e.1.txid = t) ∨ ∃ o ∈ u.unspent, o.txid = t

/-- **An update does the same to caches that agree**, wherever the transactions it is about are
found. -/
theorem Cache.Agrees.applied {env : Env} {u : Update} {scripts : List ScriptEntry}
    {store store' : TxsStore} {txs' : List (Txid × Transaction)} (h : c.Agrees c')
    (hv : 4 ≤ u.version)
    (htxs : ∀ t, Concerns c u t → (txAsFallback store u.newTxs.txs t).map Transaction.stripped =
      (txAsFallback store' txs' t).map Transaction.stripped) :
    (c.applied env u scripts store).Agrees (c'.applied env (u.withTxs txs') scripts store') := by
  have hv' : 4 ≤ (u.withTxs txs').version := hv
  have hpaths : HashMap.Same (c.stage env u scripts).paths
      (c'.stage env (u.withTxs txs') scripts).paths := h.paths.extend _
  have hunblinded : HashMap.Same (c.stage env u scripts).unblinded
      (c'.stage env (u.withTxs txs') scripts).unblinded := h.unblinded.extend _
  have hown (o : OutPoint) (ho : o ∈ (c.stage env u scripts).unblinded) : Concerns c u o.txid := by
    rcases HashMap.mem_extend.1 ho with ⟨secrets, hmem⟩ | hmem
    · exact .inr (.inr (.inr (.inl ⟨_, hmem, rfl⟩)))
    · exact .inr (.inr (.inl ⟨o, hmem, rfl⟩))
  have hindex (chain : Chain) : (c.applied env u scripts store).lastUnusedOf chain =
      (c'.applied env (u.withTxs txs') scripts store').lastUnusedOf chain := by
    rw [applied_lastUnusedOf, applied_lastUnusedOf, if_pos hv, if_pos hv',
      lastUnusedOf_congr h.lastUnusedExternal h.lastUnusedInternal]
    rfl
  rw [applied_eq (c := c), applied_eq (c := c')]
  refine ⟨(h.heights.retain _).extend _, ?_, hunblinded, hpaths, ?_, hindex .external,
    hindex .internal⟩
  · dsimp only [refresh]
    split
    · refine updateUnspentUtxosOnly_congr h.unspent fun o ho => htxs _ ?_
      exact .inr (.inr (.inr (.inr ⟨o, ho, rfl⟩)))
    · exact updateUnspent_congr hpaths hunblinded h.unspent (fun t ht => htxs t (.inl ht))
        (fun t ht => htxs t (.inr (.inl ht))) fun o ho => htxs _ (hown o ho)
  · dsimp only [refresh, stage]
    rw [h.tip]
    rfl

/-! ## The log on its own -/

/-- The transactions an update is about are in the store. -/
structure Covered (store : TxsStore) (u : Update) : Prop where
  listed : ∀ t ∈ u.txidHeightNew.map (·.1), t ∈ store
  deleted : ∀ t ∈ u.txidHeightDelete, t ∈ store
  unblinded : ∀ e ∈ u.newTxs.unblinds, e.1.txid ∈ store
  unspent : ∀ o ∈ u.unspent, o.txid ∈ store

section Covered

variable {store store' : TxsStore} {u u' : Update}

theorem Covered.mono (hs : ∀ t ∈ store, t ∈ store') (h : Covered store u) : Covered store' u :=
  ⟨fun t ht => hs t (h.listed t ht), fun t ht => hs t (h.deleted t ht),
    fun e he => hs _ (h.unblinded e he), fun o ho => hs _ (h.unspent o ho)⟩

theorem Covered.concerns (h : Covered store u) {t : Txid} (hc : Concerns .default u t) :
    t ∈ store := by
  rcases hc with ht | ht | ⟨o, ho, -⟩ | ⟨e, he, rfl⟩ | ⟨o, ho, rfl⟩
  · exact h.listed t ht
  · exact h.deleted t ht
  · exact absurd ho (AList.notMem_empty o)
  · exact h.unblinded e he
  · exact h.unspent o ho

theorem Covered.merge (h : Covered store u) (h' : Covered store u') :
    Covered store (u.merge u') := by
  refine ⟨fun t ht => ?_, fun t ht => ?_, fun e he => ?_, h'.unspent⟩
  · rcases mem_mergeHeights.1 ht with ht | ht
    · exact h.listed t ht.1
    · exact h'.listed t ht
  · rcases mem_append.1 ht with ht | ht
    · exact h.deleted t ht
    · exact h'.deleted t ht
  · rcases mem_append.1 he with he | he
    · exact h.unblinded e he
    · exact h'.unblinded e he

end Covered

theorem txAsFallback_nil (store : TxsStore) (t : Txid) :
    txAsFallback store [] t = store.lookup t := rfl

/-- A log entry that restores the cache `c` on a transaction store. -/
structure Entry (env : Env) (store : TxsStore) (entry : Update) (c : Cache) : Prop where
  version : entry.version = 4
  txs : entry.newTxs.txs = []
  covered : Covered store entry
  restores : ∃ scripts, Accepts env entry .default scripts ∧
    (Cache.default.applied env entry scripts store).Agrees c

section Entry

variable {env : Env} {U : Set Transaction} {store : TxsStore} {entry u : Update} {c : Cache}
  {txs : List (Txid × Transaction)} {scripts : List ScriptEntry}

theorem version_le (h : u.version = 4) : 4 ≤ u.version := by
  rw [h]
  decide

theorem tip_default (tip : BlockHeader) :
    tip = defaultBlockheader ∨ ¬ tip.height + 1 < Cache.default.tip.1 :=
  .inr UInt32.not_lt_zero

/-- **An entry that overwrites another restores the state after both**, if it keeps what the
other said. -/
theorem Entry.overwrite {entry' : Update} (h : Entry env store entry c)
    (hover : Overwrites entry u entry') (hv : u.version = 4)
    (hkeeps : CoalesceKeeps env .default entry u) :
    Entry env store entry' (c.applied env u [] store) := by
  obtain ⟨scripts, ha, hagrees⟩ := h.restores
  obtain rfl := onlyTip_scripts hover.prevTip ha.scripts
  obtain ⟨htxs, hunblinds, hnew, hdel, -, hunspent⟩ := onlyTip_iff.1 hover.storedTip
  refine ⟨hover.version.trans hv, htxs, ⟨?_, ?_, ?_, ?_⟩, [], (hover.accepts_iff ha).2
    hkeeps.accepted, ?_⟩
  · simp [hnew]
  · simp [hdel]
  · simp [hunblinds]
  · simp [hunspent]
  · have hboth := (hover.same_iff store store store).2 ⟨hkeeps.tip, hkeeps.external,
      hkeeps.internal⟩
    refine hboth.agrees.trans ?_
    have hlive : ((Cache.default.applied env entry [] store).applied env u [] store).Agrees
        (c.applied env (u.withTxs u.newTxs.txs) [] store) :=
      hagrees.applied (version_le hv) fun t _ => rfl
    exact hlive

variable (hb : env.Binds U) (hs : Keyed env U store)

include hb hs

theorem Entry.extend (ht : KeyedList env U txs) (h : Entry env store entry c) :
    Entry env (store.extend txs) entry c := by
  obtain ⟨scripts, ha, hagrees⟩ := h.restores
  refine ⟨h.version, h.txs, h.covered.mono fun t ht => mem_store_extend.2 (.inr ht),
    scripts, ha, Cache.Agrees.trans ?_ hagrees⟩
  have hentry : entry.withTxs [] = entry := by
    rw [Update.withTxs, ← h.txs]
  have hcongr : (Cache.default.applied env entry scripts (store.extend txs)).Agrees
      (Cache.default.applied env (entry.withTxs []) scripts store) := by
    refine (Cache.Agrees.refl .default).applied (version_le h.version) fun t hc => ?_
    rw [h.txs, txAsFallback_nil, txAsFallback_nil]
    exact (stripped_stored hb hs ht (h.covered.concerns hc)).symm
  rwa [hentry] at hcongr

variable (ht : KeyedList env U u.newTxs.txs) (hv : u.version = 4)

include ht hv

theorem applied_withTxs :
    (c.applied env u scripts (store.extend u.newTxs.txs)).Agrees
      (c.applied env (u.withTxs []) scripts (store.extend u.newTxs.txs)) := by
  refine (Cache.Agrees.refl c).applied (version_le hv) fun t _ => ?_
  rw [txAsFallback_nil]
  exact stripped_txAsFallback hb hs ht t

variable (hcovered : Covered (store.extend u.newTxs.txs) u)
variable (hscripts : computeBlindingPubkeyIfMissing env.descriptor u.scriptsWithBlindingPubkey =
  .ok scripts)

include hcovered hscripts

theorem Entry.first (hc : c.Agrees .default)
    (hstatus : u.wolletStatus = 0 ∨ env.statusHash Cache.default.statusView = u.wolletStatus) :
    Entry env (store.extend u.newTxs.txs) (u.withTxs [])
      (c.applied env u scripts (store.extend u.newTxs.txs)) where
  version := hv
  txs := rfl
  covered := ⟨hcovered.listed, hcovered.deleted, hcovered.unblinded, hcovered.unspent⟩
  restores := by
    refine ⟨scripts, ⟨hstatus, hscripts, tip_default _⟩, ?_⟩
    have hsame : (c.applied env u scripts (store.extend u.newTxs.txs)).Agrees
        (Cache.default.applied env u scripts (store.extend u.newTxs.txs)) :=
      hc.applied (version_le hv) fun _ _ => rfl
    exact (hsame.trans (applied_withTxs hb hs ht hv)).symm

/-- **A merged entry restores the state after both updates**, if the unspent edits merge. -/
theorem Entry.merge {d : Disk} (hd : d.txs = store.extend u.newTxs.txs)
    (h : Entry env (store.extend u.newTxs.txs) entry c)
    (hmerges : UnspentMerges env (.fresh d) entry (u.withTxs [])) :
    Entry env (store.extend u.newTxs.txs) (entry.merge (u.withTxs []))
      (c.applied env u scripts (store.extend u.newTxs.txs)) := by
  obtain ⟨scripts₁, ha, hagrees⟩ := h.restores
  have hcovered' : Covered (store.extend u.newTxs.txs) (u.withTxs []) :=
    ⟨hcovered.listed, hcovered.deleted, hcovered.unblinded, hcovered.unspent⟩
  have hscripts₁₂ : computeBlindingPubkeyIfMissing env.descriptor
      (entry.merge (u.withTxs [])).scriptsWithBlindingPubkey = .ok (scripts₁ ++ scripts) :=
    computeBlindingPubkeyIfMissing_append ha.scripts hscripts
  have htxs : (entry.merge (u.withTxs [])).newTxs.txs = [] := by
    show entry.newTxs.txs ++ [] = []
    rw [h.txs]
    rfl
  refine ⟨hv, htxs, h.covered.merge hcovered', scripts₁ ++ scripts,
    ⟨ha.status, hscripts₁₂, tip_default _⟩, ?_⟩
  -- the merged entry does what the two do in sequence, both on the full store
  have hkeyed : Keyed env U (Wollet.fresh d).disk.txs := by
    show Keyed env U d.txs
    rw [hd]
    exact hs.extend ht
  have hkeyedList : KeyedList env U (entry.newTxs.txs ++ (u.withTxs []).newTxs.txs) := by
    rw [h.txs]
    exact fun e he => absurd he not_mem_nil
  have hunspent := (unspent_merge_iff hb hkeyed hkeyedList ha.scripts hscripts hscripts₁₂).2 hmerges
  have hfull : (Wollet.fresh d).disk.txs = store.extend u.newTxs.txs := hd
  have hnil : (u.withTxs []).newTxs.txs = [] := rfl
  rw [htxs, h.txs, hnil, HashMap.extend_nil, HashMap.extend_nil, hfull] at hunspent
  have hv' : (u.withTxs []).version = 4 := hv
  have hseq := (same_merge_iff h.version hv' Cache.default _ _ _).2 hunspent
  refine hseq.agrees.trans (Cache.Agrees.trans ?_ (applied_withTxs hb hs ht hv).symm)
  exact hagrees.applied (version_le hv') fun t _ => rfl

end Entry

/-! ## Operations on the stores -/

/-- The content of the stores after some operations. -/
def runOps (d : Disk) (ops : List StoreOp) : Disk := ops.foldl (fun d op => op.run d) d

theorem runOps_append (d : Disk) (ops ops' : List StoreOp) :
    runOps d (ops ++ ops') = runOps (runOps d ops) ops' := List.foldl_append

def txOps (txids : Finset Txid) (txs : List (Txid × Transaction)) : List StoreOp :=
  txs.map (fun e => .putTx e.1 e.2) ++ if txs.isEmpty then [] else [.putTxids txids]

theorem runOps_putTxs (d : Disk) (txs : List (Txid × Transaction)) :
    runOps d (txs.map fun e => .putTx e.1 e.2) = { d with txs := d.txs.extend txs } := by
  induction txs generalizing d with
  | nil => rfl
  | cons e txs ih => exact ih _

theorem runOps_txOps_take (d : Disk) (txids : Finset Txid) (txs : List (Txid × Transaction))
    (j : Nat) : (runOps d ((txOps txids txs).take j)).updates = d.updates ∧
      (runOps d ((txOps txids txs).take j)).txs = d.txs.extend (txs.take j) := by
  have hput (ids : Finset Txid) (d' : Disk) (l : List StoreOp) (hl : ∀ op ∈ l, op = .putTxids ids) :
      (runOps d' l).updates = d'.updates ∧ (runOps d' l).txs = d'.txs := by
    induction l generalizing d' with
    | nil => exact ⟨rfl, rfl⟩
    | cons op l ih =>
      have hop := hl op mem_cons_self
      subst hop
      exact ih _ fun op hop => hl op (mem_cons_of_mem _ hop)
  rw [txOps, take_append, runOps_append, ← map_take, runOps_putTxs]
  refine hput txids _ _ fun op hop => ?_
  have hmem := mem_of_mem_take hop
  split at hmem
  · exact absurd hmem not_mem_nil
  · exact mem_singleton.1 hmem

/-- The transactions are in a store of their own, and the log has one entry. -/
structure PersistsTxs (env : Env) : Prop where
  real : env.fakeUpdatesStore = false
  sound : ∀ n, env.storeFails n = false
  merged : env.mergeThreshold = some 1
  persisted : env.txsStoreIsPersisted = true

section Persist

variable {env : Env} (henv : PersistsTxs env) {u : Update} {w : Wollet}

include henv

theorem attemptUpdate_eq (op : StoreOp) (w : Wollet) :
    attemptUpdate env op w = .ok () (w.did op) :=
  attemptUpdate_real henv.real (henv.sound _) op

theorem cleared_eq (u : Update) : u.cleared env = u.withTxs [] := by
  rw [Update.cleared, henv.persisted]
  rfl

theorem persist_next (hc : coalesce env w u = none) {i n : Nat} (hnext : w.nextUpdateIndex = i)
    {w' : Wollet} (hmerge : mergeUpdates env (i + 1) ((w.did (.putUpdate (updateKey i)
      ((u.withTxs []).serialize env.codecs))).withIndex (i + 1)) = .ok n (w'.withIndex (i + 1))) :
    persist env u w = .ok () (w'.withIndex n) := by
  subst hnext
  rw [persist, get_bind, hc]
  refine get_bind_ok_iff.2 (bind_ok_iff.2 ⟨(), _, attemptUpdate_eq henv _ w, ?_⟩)
  rw [cleared_eq henv]
  exact modify_bind_ok_iff.2 (bind_ok_iff.2 ⟨n, _, hmerge, rfl⟩)

theorem persist_first (hc : coalesce env w u = none) (hnext : w.nextUpdateIndex = 0) :
    persist env u w = .ok () ((w.did (.putUpdate (updateKey 0)
      ((u.withTxs []).serialize env.codecs))).withIndex 1) := by
  refine persist_next henv hc hnext ?_
  rw [mergeUpdates, henv.merged]
  rfl

theorem persist_over {u' : Update} (hc : coalesce env w u = some u')
    (hnext : w.nextUpdateIndex = 1) : persist env u w = .ok ()
      ((w.did (.putUpdate (updateKey 0) (u'.serialize env.codecs))).withIndex 1) := by
  have hindex (op : StoreOp) : (w.did op).withIndex 1 = w.did op := by
    rw [← hnext]
    rfl
  rw [persist, get_bind]
  simp only [hc, hnext, hindex]
  exact attemptUpdate_eq henv _ w

theorem mergeStored_eq {entry : Update} (hlog : Logged env w [entry, u]) :
    mergeStored env 2 w = .ok 1
      (((w.did (.removeUpdate (updateKey 1))).did (.removeUpdate (updateKey 0))).did
        (.putUpdate (updateKey 0) ((entry.merge u).serialize env.codecs))) := by
  have hread : readMerged env w 2 = .ok (entry.merge u) := by
    rw [readMerged, except_bind_ok_iff]
    refine ⟨entry, expectUpdate_ok_iff.2 (hlog 0), ?_⟩
    rw [mergeFrom, except_bind_ok_iff]
    exact ⟨u, expectUpdate_ok_iff.2 (hlog 1), rfl⟩
  have hremove : removeDown env 2 w = .ok ()
      ((w.did (.removeUpdate (updateKey 1))).did (.removeUpdate (updateKey 0))) := by
    refine bind_ok_iff.2 ⟨(), _, attemptUpdate_eq henv _ w, ?_⟩
    exact bind_ok_iff.2 ⟨(), _, attemptUpdate_eq henv _ _, rfl⟩
  refine get_bind_ok_iff.2 (liftExcept_bind_ok_iff.2 ⟨_, hread, bind_ok_iff.2 ⟨(), _, hremove, ?_⟩⟩)
  exact bind_ok_iff.2 ⟨(), _, attemptUpdate_eq henv _ _, rfl⟩

theorem persist_second {entry : Update} (hc : coalesce env w u = none)
    (hnext : w.nextUpdateIndex = 1) (hlog : Logged env w [entry])
    (hu : (u.withTxs []).asStored.Storable env.codecs) : persist env u w = .ok ()
      (((((w.did (.putUpdate (updateKey 1) ((u.withTxs []).serialize env.codecs))).did
        (.removeUpdate (updateKey 1))).did (.removeUpdate (updateKey 0))).did
        (.putUpdate (updateKey 0)
          ((entry.merge (u.withTxs []).asStored).serialize env.codecs))).withIndex 1) := by
  have hlog' : Logged env ((w.did (.putUpdate (updateKey 1)
      ((u.withTxs []).serialize env.codecs))).withIndex 2) [entry, (u.withTxs []).asStored] :=
    hlog.append henv.real hu rfl
  have hmerge := mergeStored_eq henv hlog'
  refine persist_next henv hc hnext ?_
  rw [mergeUpdates, henv.merged]
  exact hmerge

end Persist

/-! ## Recovery -/

/-- The wallet rebuilt from the stores is in the state `c`. -/
def Recovers (env : Env) (d : Disk) (c : Cache) : Prop :=
  ∃ w', build env d = .ok () w' ∧ w'.cache.Agrees c

section Recovery

variable {env : Env} {d : Disk} {c : Cache}

theorem Recovers.congr {c' : Cache} (h : Recovers env d c) (hc : c.Agrees c') :
    Recovers env d c' := by
  obtain ⟨w', hbuild, hagrees⟩ := h
  exact ⟨w', hbuild, hagrees.trans hc⟩

theorem settle_short (henv : PersistsTxs env) {n : Nat} (hlen : n ≤ 1) (w : Wollet) :
    settle env n w = .ok () (w.withIndex n) := by
  rw [settle, mergeUpdates, henv.merged]
  simp only [if_neg (Nat.not_lt.2 hlen)]
  rfl

theorem recovers_of_replay (henv : PersistsTxs env) {us : List Update} {c' : Cache}
    {store : TxsStore} (hlog : Logged env (.fresh d) us) (hlen : us.length ≤ 1)
    (hreplay : replay env (.default, d.txs) us = some (c', store)) (h : c'.Agrees c) :
    Recovers env d c := by
  obtain ⟨w₁, hall, heq⟩ := applyAll_of_replay (w := .fresh d) henv.sound hreplay
  obtain ⟨rfl, -⟩ := Prod.mk.inj heq
  have hensure : (!env.txsStoreIsPersisted || env.mergeThreshold == some 1) = true := by
    rw [henv.merged]
    simp
  refine ⟨_, ensureElse_bind_ok_iff.2 ⟨hensure, bind_ok_iff.2 ⟨(), _,
    (restoreUpdates_ok_iff hlog).2 ⟨w₁, hall, settle_short henv hlen w₁⟩, rfl⟩⟩, ?_⟩
  exact ⟨h.heights, h.unspent, h.unblinded, h.paths, h.tip, h.lastUnusedExternal,
    h.lastUnusedInternal⟩

theorem recovers_empty (henv : PersistsTxs env) (hlog : Logged env (.fresh d) []) :
    Recovers env d .default :=
  recovers_of_replay henv hlog (Nat.zero_le 1) rfl (.refl _)

theorem recovers_entry (henv : PersistsTxs env) {entry : Update}
    (hlog : Logged env (.fresh d) [entry]) (h : Entry env d.txs entry c) : Recovers env d c := by
  obtain ⟨scripts, ha, hagrees⟩ := h.restores
  have hreplay : replay env (.default, d.txs) [entry] =
      some (Cache.default.applied env entry scripts d.txs, d.txs) := by
    rw [replay_singleton, replayStep_eq_some]
    refine ⟨scripts, ha, ?_⟩
    rw [h.txs]
    rfl
  exact recovers_of_replay henv hlog (Nat.le_refl 1) hreplay hagrees

end Recovery

/-! ## Calls -/

/-- What the log needs of an update applied to `w`: it is a version 4 update about transactions
the wallet has, in the format of the log, and what is written in the end keeps what it replaces. -/
structure LogKeeps (env : Env) (U : Set Transaction) (w : Wollet) (u : Update) : Prop where
  version : u.version = 4
  keyed : KeyedList env U u.newTxs.txs
  covered : Covered (w.disk.txs.extend u.newTxs.txs) u
  storable : (u.withTxs []).Storable env.codecs
  first : getUpdate env w 0 = .ok none →
    u.wolletStatus = 0 ∨ env.statusHash Cache.default.statusView = u.wolletStatus
  overwritten : ∀ entry u', getUpdate env w 0 = .ok (some entry) → coalesce env w u = some u' →
    u'.Storable env.codecs ∧ CoalesceKeeps env .default entry u
  merged : ∀ entry, getUpdate env w 0 = .ok (some entry) → coalesce env w u = none →
    (entry.merge (u.withTxs [])).Storable env.codecs ∧
      UnspentMerges env (.fresh { w.disk with txs := w.disk.txs.extend u.newTxs.txs }) entry
        (u.withTxs [])

/-- What holds between calls of a wallet that was built on the stores `d`. -/
structure Live (env : Env) (U : Set Transaction) (d : Disk) (w : Wollet) : Prop where
  disk : w.disk = runOps d w.log
  keyed : Keyed env U w.disk.txs
  entry : (w.nextUpdateIndex = 0 ∧ Logged env w [] ∧ w.cache.Agrees .default) ∨
    ∃ entry, w.nextUpdateIndex = 1 ∧ Logged env w [entry] ∧ Entry env w.disk.txs entry w.cache

section Call

variable {env : Env} {U : Set Transaction} {d : Disk} {w w' : Wollet} {u : Update}
  {scripts : List ScriptEntry}

theorem asStored_of_version (h : u.version = 4) : u.asStored = u := by
  rw [Update.asStored, if_pos]
  rw [h]
  decide

theorem applied_log (env : Env) (u : Update) (scripts : List ScriptEntry) (w : Wollet) :
    (w.applied env u scripts).log =
      w.log ++ txOps (w.extended u.newTxs.txs).cache.txids u.newTxs.txs := by
  show w.log ++ _ ++ _ = _
  rw [append_assoc]
  rfl

theorem applied_disk (env : Env) (u : Update) (scripts : List ScriptEntry) (w : Wollet) :
    (w.applied env u scripts).disk =
      runOps w.disk (txOps (w.extended u.newTxs.txs).cache.txids u.newTxs.txs) := by
  rw [txOps, runOps_append, runOps_putTxs]
  cases htxs : u.newTxs.txs.isEmpty with
  | true | false =>
    show Disk.mk _ (if u.newTxs.txs.isEmpty then _ else _) _ = _
    rw [htxs]
    rfl

theorem take_append_cases {α : Type} (l l' : List α) (j : Nat) :
    (l ++ l').take j = l.take j ∨ ∃ i, (l ++ l').take j = l ++ l'.take (i + 1) := by
  rw [take_append]
  by_cases hj : j ≤ l.length
  · left
    rw [Nat.sub_eq_zero_of_le hj, take_zero, append_nil]
  · right
    refine ⟨j - l.length - 1, ?_⟩
    rw [take_of_length_le (by omega)]
    congr 2
    omega

variable (henv : PersistsTxs env) (hb : env.Binds U) (h : Live env U d w)

include henv hb h

theorem Live.recovers_storing (hu : KeyedList env U u.newTxs.txs) (txids : Finset Txid) (j : Nat) :
    Recovers env (runOps w.disk ((txOps txids u.newTxs.txs).take j)) w.cache := by
  obtain ⟨hupdates, htxs⟩ := runOps_txOps_take w.disk txids u.newTxs.txs j
  rcases h.entry with ⟨-, hlog, hcache⟩ | ⟨entry, -, hlog, hentry⟩
  · exact (recovers_empty henv (hlog.congr hupdates)).congr hcache.symm
  · refine recovers_entry henv (hlog.congr hupdates) ?_
    rw [htxs]
    exact hentry.extend hb h.keyed fun e he => hu e (mem_of_mem_take he)

/-- What a crash during one call leaves: the state before it, the one after it, or nothing. -/
def CrashSafe (env : Env) (w w' : Wollet) (ops : List StoreOp) : Prop :=
  ∀ j, (∀ bytes, (ops.take j).getLast? ≠ some (.putUpdate (updateKey 1) bytes)) →
    Recovers env (runOps w.disk (ops.take j)) w.cache ∨
      Recovers env (runOps w.disk (ops.take j)) w'.cache ∨
      ((ops.take j).getLast? = some (.removeUpdate (updateKey 0)) ∧
        Recovers env (runOps w.disk (ops.take j)) .default)

theorem crashSafe_single (hu : KeyedList env U u.newTxs.txs) {txids : Finset Txid} {op : StoreOp}
    {entry : Update}
    (hlog : Logged env (.fresh (runOps w.disk (txOps txids u.newTxs.txs ++ [op]))) [entry])
    (hentry : Entry env (runOps w.disk (txOps txids u.newTxs.txs ++ [op])).txs entry w'.cache) :
    CrashSafe env w w' (txOps txids u.newTxs.txs ++ [op]) := by
  intro j _
  rcases take_append_cases (txOps txids u.newTxs.txs) [op] j with htake | ⟨i, htake⟩
  · rw [htake]
    exact .inl (h.recovers_storing henv hb hu txids j)
  · rw [htake, take_of_length_le (by simp)]
    exact .inr (.inl (recovers_entry henv hlog hentry))

def CallSafe (env : Env) (U : Set Transaction) (d : Disk) (w w' : Wollet) : Prop :=
  ∃ ops, w'.log = w.log ++ ops ∧ CrashSafe env w w' ops ∧ Live env U d w'

theorem Live.single (hu : KeyedList env U u.newTxs.txs) {bytes : Bytes} {entry : Update}
    (hw' : w' = ((w.applied env u scripts).did (.putUpdate (updateKey 0) bytes)).withIndex 1)
    (hlog : Logged env w' [entry])
    (hentry : Entry env (w.disk.txs.extend u.newTxs.txs) entry
      (w.cache.applied env u scripts (w.disk.txs.extend u.newTxs.txs))) :
    CallSafe env U d w w' := by
  have hdisk : w'.disk = runOps w.disk (txOps (w.extended u.newTxs.txs).cache.txids u.newTxs.txs ++
      [.putUpdate (updateKey 0) bytes]) := by
    rw [runOps_append, ← applied_disk env u scripts w, hw']
    rfl
  have hlogs : w'.log = w.log ++ (txOps (w.extended u.newTxs.txs).cache.txids u.newTxs.txs ++
      [.putUpdate (updateKey 0) bytes]) := by
    rw [← append_assoc, ← applied_log env u scripts w, hw']
    rfl
  have htxs : w'.disk.txs = w.disk.txs.extend u.newTxs.txs := by rw [hw']; rfl
  have hcache : w'.cache = w.cache.applied env u scripts (w.disk.txs.extend u.newTxs.txs) := by
    rw [hw']; rfl
  have hindex : w'.nextUpdateIndex = 1 := by rw [hw']; rfl
  have hentry' : Entry env w'.disk.txs entry w'.cache := by rwa [htxs, hcache]
  refine ⟨_, hlogs, ?_, ?_, ?_, .inr ⟨entry, hindex, hlog, hentry'⟩⟩
  · rw [hdisk] at hentry'
    refine crashSafe_single henv hb h hu ?_ hentry'
    rw [← hdisk]
    exact hlog
  · rw [hlogs, runOps_append, ← h.disk, ← hdisk]
  · rw [htxs]
    exact h.keyed.extend hu

section Persisted

variable (hk : LogKeeps env U w u) (ha : Accepts env u w.cache scripts)
  (hpersist : persist env u (w.applied env u scripts) = .ok () w')

include hk ha hpersist

theorem Live.first (hnext : w.nextUpdateIndex = 0) (hlog : Logged env w [])
    (hcache : w.cache.Agrees .default) : CallSafe env U d w w' := by
  have hc : coalesce env (w.applied env u scripts) u = none := by
    refine Option.eq_none_iff_forall_ne_some.2 fun u' hu' => ?_
    have hpos : 0 < w.nextUpdateIndex := (coalesce_eq_some.1 hu').2.1
    omega
  rw [persist_first henv hc hnext] at hpersist
  injection hpersist with _ hw'
  have hstored := asStored_of_version (u := u.withTxs []) hk.version
  have hlog' : Logged env w' ([] ++ [(u.withTxs []).asStored]) := by
    refine hlog.append henv.real ?_ ?_
    · rw [hstored]
      exact hk.storable
    · rw [← hw']
      rfl
  rw [hstored] at hlog'
  refine h.single henv hb hk.keyed hw'.symm hlog' ?_
  exact Entry.first hb h.keyed hk.keyed hk.version hk.covered ha.scripts hcache (hk.first (hlog 0))

variable {entry : Update} (hnext : w.nextUpdateIndex = 1) (hlog : Logged env w [entry])
  (hentry : Entry env w.disk.txs entry w.cache)

include hnext hlog hentry

theorem Live.over {u' : Update} (hc : coalesce env w u = some u') :
    CallSafe env U d w w' := by
  have hget : getUpdate env w 0 = .ok (some entry) := hlog 0
  obtain ⟨hstorable, hkeeps⟩ := hk.overwritten entry u' hget hc
  have hover : Overwrites entry u u'.asStored := by
    refine coalesce_overwrites ?_ hc
    rw [hnext]
    exact hget
  have hstored : u'.asStored = u' := by
    obtain ⟨-, -, prev, -, -, rfl⟩ := coalesce_eq_some.1 hc
    exact asStored_of_version hk.version
  rw [hstored] at hover
  have hc' : coalesce env (w.applied env u scripts) u = some u' := hc
  rw [persist_over henv hc' hnext] at hpersist
  injection hpersist with _ hw'
  obtain rfl := onlyTip_scripts hover.newTip ha.scripts
  have hlog' : Logged env w' ([] ++ [u'.asStored]) := by
    have hlast : Logged env w ([] ++ [entry]) := hlog
    refine hlast.replace henv.real ?_ ?_
    · rw [hstored]
      exact hstorable
    · rw [← hw']
      rfl
  rw [hstored] at hlog'
  have hfull := hentry.extend hb h.keyed hk.keyed
  exact h.single henv hb hk.keyed hw'.symm hlog' (hfull.overwrite hover hk.version hkeeps)

theorem Live.merge (hc : coalesce env w u = none) : CallSafe env U d w w' := by
  have hget : getUpdate env w 0 = .ok (some entry) := hlog 0
  obtain ⟨hstorable, hmerges⟩ := hk.merged entry hget hc
  have hstored := asStored_of_version (u := u.withTxs []) hk.version
  have hc' : coalesce env (w.applied env u scripts) u = none := hc
  have hlog₁ : Logged env (w.applied env u scripts) [entry] := hlog
  have hu : (u.withTxs []).asStored.Storable env.codecs := by
    rw [hstored]
    exact hk.storable
  rw [persist_second henv hc' hnext hlog₁ hu, hstored] at hpersist
  injection hpersist with _ hw'
  -- the stores along the way
  let d₁ := (w.applied env u scripts).disk
  let put₁ := StoreOp.putUpdate (updateKey 1) ((u.withTxs []).serialize env.codecs)
  let put₀ := StoreOp.putUpdate (updateKey 0) ((entry.merge (u.withTxs [])).serialize env.codecs)
  let d₃ := (StoreOp.removeUpdate (updateKey 1)).run (put₁.run d₁)
  let d₄ := (StoreOp.removeUpdate (updateKey 0)).run d₃
  have hlog₂ : Logged env (.fresh (put₁.run d₁)) ([entry] ++ [(u.withTxs []).asStored]) :=
    hlog₁.append henv.real hu rfl
  have hlog₃ : Logged env (.fresh d₃) ([] ++ [entry]) := hlog₂.removeLast rfl
  have hlog₄ : Logged env (.fresh d₄) [] := hlog₃.removeLast rfl
  have hmergedVersion : (entry.merge (u.withTxs [])).asStored = entry.merge (u.withTxs []) :=
    asStored_of_version hk.version
  have hlog₅ : Logged env (.fresh (put₀.run d₄))
      ([] ++ [(entry.merge (u.withTxs [])).asStored]) := by
    refine hlog₄.append henv.real ?_ rfl
    rw [hmergedVersion]
    exact hstorable
  rw [hmergedVersion] at hlog₅
  have hfull := hentry.extend hb h.keyed hk.keyed
  have hmerged := hfull.merge hb h.keyed hk.keyed hk.version hk.covered ha.scripts rfl hmerges
  have hcache : w'.cache = w.cache.applied env u scripts (w.disk.txs.extend u.newTxs.txs) := by
    rw [← hw']
    rfl
  have htxs : w'.disk.txs = w.disk.txs.extend u.newTxs.txs := by
    rw [← hw']
    rfl
  have hdisk : w'.disk = put₀.run d₄ := by
    rw [← hw']
    rfl
  have hlogs : w'.log = w.log ++ (txOps (w.extended u.newTxs.txs).cache.txids u.newTxs.txs ++
      [put₁, .removeUpdate (updateKey 1), .removeUpdate (updateKey 0), put₀]) := by
    rw [← append_assoc, ← applied_log env u scripts w, ← hw']
    simp only [Wollet.withIndex, Wollet.did, append_assoc, cons_append, nil_append]
    rfl
  have hops (l : List StoreOp) :
      runOps w.disk (txOps (w.extended u.newTxs.txs).cache.txids u.newTxs.txs ++ l) =
        runOps d₁ l := by
    rw [runOps_append, ← applied_disk env u scripts w]
  refine ⟨_, hlogs, ?_, ?_, ?_, .inr ⟨entry.merge (u.withTxs []), ?_, ?_, ?_⟩⟩
  · intro j hsafe
    rcases take_append_cases (txOps (w.extended u.newTxs.txs).cache.txids u.newTxs.txs) _ j
      with htake | ⟨i, htake⟩
    · rw [htake]
      exact .inl (h.recovers_storing henv hb hk.keyed _ j)
    · rw [htake, hops]
      rw [htake] at hsafe
      rcases i with _ | _ | _ | i
      · -- the update is written and not merged yet
        refine absurd ?_ (hsafe ((u.withTxs []).serialize env.codecs))
        rw [getLast?_append]
        rfl
      · exact .inl (recovers_entry henv hlog₃ hfull)
      · refine .inr (.inr ⟨?_, recovers_empty henv hlog₄⟩)
        rw [getLast?_append]
        rfl
      · rw [take_of_length_le (by simp)]
        refine .inr (.inl (recovers_entry henv hlog₅ ?_))
        rw [hcache]
        exact hmerged
  · rw [hlogs, runOps_append, ← h.disk, hops, hdisk]
    rfl
  · rw [htxs]
    exact h.keyed.extend hk.keyed
  · rw [← hw']
    rfl
  · exact hlog₅.congr (congrArg Disk.updates hdisk)
  · rw [htxs, hcache]
    exact hmerged

end Persisted

/-- **One call on a live wallet** leaves it live, and a crash in it leaves a state from before or
after it, except in the two gaps of the merge. -/
theorem Live.step (hk : LogKeeps env U w u) (hok : applyUpdate env u w = .ok () w') :
    CallSafe env U d w w' := by
  obtain ⟨scripts, ha, hpersist⟩ := applyUpdate_persist hok
  rcases h.entry with ⟨hnext, hlog, hcache⟩ | ⟨entry, hnext, hlog, hentry⟩
  · exact h.first henv hb hk ha hpersist hnext hlog hcache
  · cases hc : coalesce env w u with
    | none => exact h.merge henv hb hk ha hpersist hnext hlog hentry hc
    | some u' => exact h.over henv hb hk ha hpersist hnext hlog hentry hc

end Call

/-! ## Histories -/

/-- Stores as the calls below leave them: the log has at most one entry, about transactions that
are stored. -/
structure Left (env : Env) (U : Set Transaction) (d : Disk) : Prop where
  keyed : Keyed env U d.txs
  log : Logged env (.fresh d) [] ∨ ∃ entry, Logged env (.fresh d) [entry] ∧ entry.version = 4 ∧
    entry.newTxs.txs = [] ∧ Covered d.txs entry

/-- `Changes env d calls w`: a wallet is built on the stores `d` and the calls take it to `w`.
Each call is listed with the wallet it was made on. -/
inductive Changes (env : Env) (d : Disk) : List (Wollet × Update) → Wollet → Prop
  | start {w : Wollet} (hbuild : build env d = .ok () w) : Changes env d [] w
  | call {calls : List (Wollet × Update)} {w w' : Wollet} {u : Update}
      (h : Changes env d calls w) (hchange : Change env w u w') :
      Changes env d (calls ++ [(w, u)]) w'

section History

variable {env : Env} {U : Set Transaction} {d : Disk} {w w' : Wollet} {u : Update}
  {calls : List (Wollet × Update)}

theorem build_ok (henv : PersistsTxs env) {us : List Update} (hlog : Logged env (.fresh d) us)
    (hlen : us.length ≤ 1) (h : build env d = .ok () w) :
    ∃ w₁, applyAll env us (.fresh d) = .ok () w₁ ∧ w.disk = w₁.disk ∧ w.log = w₁.log ∧
      w.nextUpdateIndex = us.length ∧ w.cache.Agrees w₁.cache := by
  obtain ⟨-, h⟩ := ensureElse_bind_ok_iff.1 h
  obtain ⟨_, w₂, hrestore, h⟩ := bind_ok_iff.1 h
  obtain ⟨w₁, hall, hsettle⟩ := (restoreUpdates_ok_iff hlog).1 hrestore
  rw [settle_short henv hlen] at hsettle
  injection hsettle with _ hw₂
  obtain rfl := modify_ok_iff.1 h
  rw [← hw₂]
  exact ⟨w₁, hall, rfl, rfl, rfl, .refl _, .refl _, .refl _, .refl _, rfl, rfl, rfl⟩

section Built

variable (henv : PersistsTxs env) (hd : Left env U d) (h : build env d = .ok () w)

include henv hd h

theorem Left.untouched :
    w.disk = d ∧ w.log = [] := by
  rcases hd.log with hlog | ⟨entry, hlog, -, htxs, -⟩
  · obtain ⟨w₁, hall, hdisk, hlogs, -⟩ := build_ok henv hlog (Nat.zero_le 1) h
    obtain ⟨-, rfl⟩ := pure_ok_iff.1 hall
    exact ⟨hdisk, hlogs⟩
  · obtain ⟨w₁, hall, hdisk, hlogs, -⟩ := build_ok henv hlog (Nat.le_refl 1) h
    obtain ⟨_, w₂, hentry, hnil⟩ := bind_ok_iff.1 hall
    obtain ⟨-, rfl⟩ := pure_ok_iff.1 hnil
    obtain ⟨scripts, -, rfl⟩ := applyUpdateInner_ok hentry
    rw [hdisk, hlogs, applied_disk, applied_log, htxs]
    exact ⟨rfl, rfl⟩

theorem Left.live :
    Live env U d w := by
  obtain ⟨hdisk, hlogs⟩ := hd.untouched henv h
  have hupdates : w.disk.updates = d.updates := congrArg Disk.updates hdisk
  refine ⟨?_, ?_, ?_⟩
  · rw [hdisk, hlogs]
    rfl
  · rw [hdisk]
    exact hd.keyed
  · rcases hd.log with hlog | ⟨entry, hlog, hv, htxs, hcovered⟩
    · obtain ⟨w₁, hall, -, -, hnext, hagrees⟩ := build_ok henv hlog (Nat.zero_le 1) h
      obtain ⟨-, rfl⟩ := pure_ok_iff.1 hall
      exact .inl ⟨hnext, hlog.congr hupdates, hagrees⟩
    · obtain ⟨w₁, hall, -, -, hnext, hagrees⟩ := build_ok henv hlog (Nat.le_refl 1) h
      obtain ⟨_, w₂, hentry, hnil⟩ := bind_ok_iff.1 hall
      obtain ⟨-, rfl⟩ := pure_ok_iff.1 hnil
      obtain ⟨scripts, ha, rfl⟩ := applyUpdateInner_ok hentry
      have hcache : (Wollet.applied env entry scripts (.fresh d)).cache =
          Cache.default.applied env entry scripts d.txs := by
        rw [Wollet.applied, htxs]
        rfl
      rw [hcache] at hagrees
      refine .inr ⟨entry, hnext, hlog.congr hupdates, ?_⟩
      rw [hdisk]
      exact ⟨hv, htxs, hcovered, scripts, ha, hagrees.symm⟩

theorem Left.starts_empty (hempty : getUpdate env (.fresh d) 0 = .ok none) :
    w.cache.Agrees .default := by
  rcases (hd.live henv h).entry with ⟨-, -, hagrees⟩ | ⟨entry, -, hlog, -⟩
  · exact hagrees
  · have hget : getUpdate env w 0 = .ok (some entry) := hlog 0
    have hcongr : getUpdate env w 0 = getUpdate env (.fresh d) 0 :=
      getUpdate_congr (congrArg Disk.updates (hd.untouched henv h).1) 0
    rw [hcongr, hempty] at hget
    cases hget

end Built

theorem Changes.live (henv : PersistsTxs env) (hb : env.Binds U) (hd : Left env U d)
    (h : Changes env d calls w) (hk : ∀ e ∈ calls, LogKeeps env U e.1 e.2) : Live env U d w := by
  induction h with
  | start hbuild => exact hd.live henv hbuild
  | call _ hchange ih =>
    have hlive := ih fun e he => hk e (mem_append_left _ he)
    obtain ⟨_, -, -, hlive'⟩ := hlive.step henv hb
      (hk _ (mem_append_right _ (mem_singleton_self _))) hchange.applyUpdate
    exact hlive'

theorem Changes.starts (h : Changes env d calls w) :
    ∃ v ∈ calls.map Prod.fst ++ [w], build env d = .ok () v := by
  induction h with
  | start hbuild => exact ⟨_, mem_singleton_self _, hbuild⟩
  | call _ _ ih =>
    obtain ⟨v, hv, hbuild⟩ := ih
    refine ⟨v, mem_append_left _ ?_, hbuild⟩
    rwa [map_append]

/-- **Crash consistency.** A wallet is built on its stores, calls are made on it, and after `k` of
the operations they issue the process dies. If the log keeps every update of the calls, and the
crash is not right after the write of an update that is still to be merged, nor between the
removal of the log's only entry and its replacement (unless the log was empty at the start), the
wallet can be rebuilt from the stores and is in a state that it had. -/
theorem crash_recovers (henv : PersistsTxs env) (hb : env.Binds U) (hd : Left env U d)
    (h : Changes env d calls w) (hk : ∀ e ∈ calls, LogKeeps env U e.1 e.2) {k : Nat}
    (hwrite : ∀ bytes, (w.log.take k).getLast? ≠ some (.putUpdate (updateKey 1) bytes))
    (hgap : (w.log.take k).getLast? = some (.removeUpdate (updateKey 0)) →
      getUpdate env (.fresh d) 0 = .ok none) :
    ∃ v ∈ calls.map Prod.fst ++ [w], Recovers env (runOps d (w.log.take k)) v.cache := by
  induction h with
  | @start w hbuild =>
    refine ⟨w, mem_singleton_self _, w, ?_, .refl _⟩
    rw [(hd.untouched henv hbuild).2, take_nil]
    exact hbuild
  | @call calls w w' u hcalls hchange ih =>
    have hk' : ∀ e ∈ calls, LogKeeps env U e.1 e.2 := fun e he =>
      hk e (mem_append_left _ he)
    have hlive := hcalls.live henv hb hd hk'
    have hkeeps := hk (w, u) (mem_append_right _ (mem_singleton_self _))
    obtain ⟨ops, hlog, hsafe, -⟩ := hlive.step henv hb hkeeps hchange.applyUpdate
    rw [map_append]
    rw [hlog] at hwrite hgap ⊢
    rcases take_append_cases w.log ops k with htake | ⟨i, htake⟩
    · -- the crash was in an earlier call
      rw [htake] at hwrite hgap ⊢
      obtain ⟨v, hv, hrecovers⟩ := ih hk' hwrite hgap
      exact ⟨v, mem_append_left _ hv, hrecovers⟩
    · rw [htake] at hwrite hgap ⊢
      have hlast (op : StoreOp) (hop : (ops.take (i + 1)).getLast? = some op) :
          (w.log ++ ops.take (i + 1)).getLast? = some op := by
        rw [getLast?_append, hop]
        rfl
      rw [runOps_append, ← hlive.disk]
      rcases hsafe (i + 1) fun bytes hop => hwrite bytes (hlast _ hop) with
        hbefore | hafter | ⟨hremoved, hnothing⟩
      · exact ⟨w, mem_append_left _ (mem_append_right _ (mem_singleton_self _)), hbefore⟩
      · exact ⟨w', mem_append_right _ (mem_singleton_self _), hafter⟩
      · obtain ⟨v, hv, hbuild⟩ := hcalls.starts
        have hempty := hd.starts_empty henv hbuild (hgap (hlast _ hremoved))
        exact ⟨v, mem_append_left _ hv, hnothing.congr hempty.symm⟩

end History

/-! ## An update that is not merged in time -/

namespace Unmerged

def paying : Transaction := ⟨[], [⟨.explicit 1, .explicit 1000, .null, [1], none⟩]⟩

def env : Env :=
  { Concrete.env (fun _ => 7) [[1]] with
    mergeThreshold := some 1
    txsStoreIsPersisted := true
    fakeUpdatesStore := false }

def server (height : Height) (payingHeight : Int32) : Backend :=
  Concrete.server env height [paying] fun script =>
    if script = [1] then [⟨7, payingHeight, none⟩] else []

def opened : Wollet := .fresh .empty

def first : Update := Concrete.scanned env (server 4 0) opened

def before : Wollet := Concrete.updated env first opened

def second : Update := Concrete.scanned env (server 5 5) before

def after : Wollet := Concrete.updated env second before

theorem persistsTxs : PersistsTxs env := ⟨rfl, fun _ => rfl, rfl, rfl⟩

theorem changes : Changes env .empty [(opened, first), (before, second)] after := by
  have hstart : Changes env .empty [] opened := .start rfl
  exact (hstart.call (.update (Concrete.applyUpdate_updated (by decide)))).call
    (.update (Concrete.applyUpdate_updated (by decide +kernel)))

def refusal (d : Disk) : Option Error :=
  match build env d with
  | .ok _ _ => none
  | .error e _ => some e

/-- A crash right after the second update is written: the wallet can no longer be built. -/
theorem crash_refused : Changes env .empty [(opened, first), (before, second)] after ∧
    ∀ c, ¬ Recovers env (runOps .empty (after.log.take 4)) c := by
  refine ⟨changes, fun c h => ?_⟩
  obtain ⟨w', hbuild, -⟩ := h
  have hrefused : (refusal (runOps .empty (after.log.take 4))).isSome = true := by decide +kernel
  rw [refusal, hbuild] at hrefused
  exact absurd hrefused (by simp)

theorem binds : env.Binds {paying} := by
  intro tx htx tx' htx' _
  rw [Set.mem_singleton_iff.1 htx, Set.mem_singleton_iff.1 htx']

theorem left_empty : Left env {paying} .empty where
  keyed := fun t tx h => absurd h (by simp [Disk.empty])
  log := .inl fun _ => rfl

theorem first_scripts : first.scriptsWithBlindingPubkey = [(.external, .normal 0, [1], none)] := by
  decide

theorem first_heights : first.txidHeightNew = [(7, none)] := by decide

theorem first_storable : (first.withTxs []).Storable env.codecs where
  version := by decide
  status := fun h => absurd (by decide) h
  keys := fun h => absurd (by decide) h
  unspent := fun h => absurd (by decide) h
  lastUnused := fun h => absurd (by decide) h
  txids := fun _ he => absurd he not_mem_nil
  heights := by
    show ∀ e ∈ first.txidHeightNew, _
    rw [first_heights]
    simp
  children := by
    intro e he
    have hmem : e ∈ first.scriptsWithBlindingPubkey := he
    rw [first_scripts, mem_singleton] at hmem
    subst hmem
    exact ⟨0, rfl, by decide⟩
  onCurve := fun _ _ _ _ => rfl
  transactions := fun _ he => absurd he not_mem_nil
  scripts := by decide
  tip := by decide
  unblindsVout := by decide
  unspentVout := by decide
  txsLength := Nat.two_pow_pos 64
  unblindsLength := by decide
  newLength := by decide
  deleteLength := by decide
  timestampsLength := by decide
  scriptsLength := by decide
  unspentLength := by decide

theorem first_logKeeps : LogKeeps env {paying} opened first := by
  have hempty : getUpdate env opened 0 = .ok none := rfl
  have htxs : first.newTxs.txs = [(7, paying)] := by decide
  have hpaying : 7 ∈ opened.disk.txs.extend first.newTxs.txs := by
    rw [htxs]
    exact mem_store_extend.2 (.inl (mem_singleton_self _))
  have hdeleted : first.txidHeightDelete = [] := by decide
  have hunblinded : ∀ e ∈ first.newTxs.unblinds, e.1.txid = 7 := by decide
  have hunspent : first.unspent = [] := by decide
  refine ⟨by decide, ?_, ⟨?_, ?_, ?_, ?_⟩, first_storable, fun _ => .inl ?_, ?_, ?_⟩
  · intro e he
    rw [htxs, mem_singleton] at he
    subst he
    exact ⟨rfl, rfl⟩
  · rw [first_heights]
    simpa using hpaying
  · simp [hdeleted]
  · intro e he
    rw [hunblinded e he]
    exact hpaying
  · simp [hunspent]
  · decide
  · intro entry u' hentry
    rw [hempty] at hentry
    cases hentry
  · intro entry hentry
    rw [hempty] at hentry
    cases hentry

def writesSecond : StoreOp → Bool
  | .putUpdate key _ => key == updateKey 1
  | _ => false

/-- A crash after the first call stored its transaction and before it logged the update. -/
theorem crash_recovers_first : ∃ v ∈ [opened, before],
    Recovers env (runOps .empty (before.log.take 2)) v.cache := by
  have hchanges : Changes env .empty ([] ++ [(opened, first)]) before :=
    .call (.start rfl) (.update (Concrete.applyUpdate_updated (by decide)))
  have hkeeps : ∀ e ∈ [(opened, first)], LogKeeps env {paying} e.1 e.2 := by
    simpa using first_logKeeps
  have hnone : ∀ op ∈ before.log, writesSecond op = false := by decide
  refine crash_recovers persistsTxs binds left_empty hchanges hkeeps ?_ fun _ => rfl
  intro bytes hlast
  have hwrites := hnone _ (mem_of_mem_take (mem_of_getLast? hlast))
  exact absurd hwrites (by simp [writesSecond])

end Unmerged

end Swk
