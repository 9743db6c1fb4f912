import Swk.Replay
import Swk.Scan

/-!
# Stored updates and coalescing

A wallet that never merges its stored updates still does not store all of them: an update that
only moves the tip overwrites the previous one if that only moved the tip too. The overwriting
update gets the status and the timestamps of the one it replaces, but not its tip and not its
last unused indexes.

The question is when a wallet rebuilt from the store has the content of the live one. Every
update of that kind changes the cache in a simple way (`Cache.tipped`), which makes it possible to
say exactly what an overwriting update must keep (`CoalesceKeeps`). Over any sequence of updates,
all states can be restored exactly when every overwriting keeps that much (`restores_iff`). An
update with the default header, such as the one of a built transaction, does not: it loses the
tip.
-/

namespace Swk

open List Cache

/-! ## Updates that only move the tip -/

variable {u : Update} {b p : UInt32} {prev u' : Update}

theorem onlyTip_iff : u.onlyTip = true ↔
    u.newTxs.txs = [] ∧ u.newTxs.unblinds = [] ∧ u.txidHeightNew = [] ∧
      u.txidHeightDelete = [] ∧ u.scriptsWithBlindingPubkey = [] ∧ u.unspent = [] := by
  simp only [Update.onlyTip, DownloadTxResult.isEmpty, Bool.and_eq_true, List.isEmpty_iff,
    and_assoc]

/-- The cache after an update that only moves the tip. -/
def Cache.tipped (env : Env) (u : Update) (c : Cache) : Cache :=
  { c with
    sortedTxids := Cache.rebuildSortedTxids c.heights
    unspent := if env.utxoOnly then ∅ else c.unspent
    tip := if u.tip ≠ defaultBlockheader then (u.tip.height, env.blockHash u.tip) else c.tip
    timestamps := c.timestamps.extend u.timestamps
    lastUnusedExternal :=
      if 4 ≤ u.version then max c.lastUnusedExternal u.lastUnused.external
      else c.lastUnusedExternal
    lastUnusedInternal :=
      if 4 ≤ u.version then max c.lastUnusedInternal u.lastUnused.internal
      else c.lastUnusedInternal }

theorem updateHeights_nil (heights : HashMap Txid (Option Height)) :
    HashMap.Same (Cache.updateHeights heights [] []) heights := by
  intro t
  rw [updateHeights, HashMap.extend_nil]
  exact (HashMap.lookup_retain_keys _ (fun k => decide (k ∉ [])) t).trans (by simp)

theorem applied_onlyTip {env : Env} (h : u.onlyTip = true) (c : Cache)
    (store : TxsStore) : (c.applied env u [] store).Same (c.tipped env u) := by
  obtain ⟨htxs, hunblinds, hnew, hdel, hscripts, hunspent⟩ := onlyTip_iff.1 h
  have hheights := updateHeights_nil c.heights
  have hindex (chain : Chain) :
      (c.applied env u [] store).lastUnusedOf chain = (c.tipped env u).lastUnusedOf chain := by
    rw [applied_lastUnusedOf, hnew, hdel]
    cases chain <;> rfl
  rw [applied_eq, refresh, hnew, hdel, htxs, hunspent, stage, hunblinds]
  refine ⟨?_, .refl _, .refl _, hheights, rebuildSortedTxids_same hheights, ?_, .refl _, rfl,
    .refl _, hindex .external, hindex .internal⟩
  · simp [tipped]
  · unfold tipped
    cases env.utxoOnly with
    | true => exact .refl _
    | false =>
      intro o
      have hremoves : ¬ Cache.Removes store [] [] [] o := by simp [Cache.Removes, inputsOf]
      have hadds (c : Cache) : ¬ c.Adds store [] [] [] o := by simp [Cache.Adds, inputsOf]
      simp only [Bool.false_eq_true, if_false]
      rw [lookup_updateUnspent, if_neg hremoves, if_neg (hadds _)]

theorem Cache.Same.tipped {env : Env} {c c' : Cache} (h : c.Same c') :
    (c.tipped env u).Same (c'.tipped env u) := by
  refine ⟨h.txids, h.paths, h.scripts, h.heights, rebuildSortedTxids_same h.heights, ?_,
    h.unblinded, ?_, h.timestamps.extend _, ?_, ?_⟩
  · unfold Cache.tipped
    split
    · exact .refl _
    · exact h.unspent
  · simp only [Cache.tipped, h.tip]
  · simp only [Cache.tipped, h.lastUnusedExternal]
  · simp only [Cache.tipped, h.lastUnusedInternal]

/-! ## What overwriting must keep -/

/-- The tip of `prev` is not lost when `u` takes its place on `base`. -/
def TipKept (env : Env) (base : Cache) (prev u : Update) : Prop :=
  u.tip = defaultBlockheader →
    prev.tip = defaultBlockheader ∨ (prev.tip.height, env.blockHash prev.tip) = base.tip

/-- An index moved to `p` by an update of version `v'` is not lost when an update of version `v`
with index `q` takes its place, on a cache that has the index at `b`. -/
def IndexKept (b p q : UInt32) (v' v : UInt8) : Prop :=
  4 ≤ v' → p ≤ b ∨ 4 ≤ v ∧ p ≤ q

/-- An update `u` that overwrites `prev`, stored when the cache was `base`, keeps what `prev`
said: its tip is accepted on `base` and takes the place of the one of `prev`, and it knows of the
indexes that `prev` moved. -/
structure CoalesceKeeps (env : Env) (base : Cache) (prev u : Update) : Prop where
  accepted : u.tip = defaultBlockheader ∨ ¬ u.tip.height + 1 < base.tip.1
  tip : TipKept env base prev u
  external : IndexKept base.lastUnusedExternal prev.lastUnused.external u.lastUnused.external
    prev.version u.version
  internal : IndexKept base.lastUnusedInternal prev.lastUnused.internal u.lastUnused.internal
    prev.version u.version

theorem max_eq_iff_u32 {q : UInt32} : max b q = max (max b p) q ↔ p ≤ b ∨ p ≤ q := by
  simp only [Max.max]
  grind

theorem max_self_iff_u32 : b = max b p ↔ p ≤ b := by
  simp only [Max.max]
  grind

theorem indexKept_iff {q : UInt32} {v' v : UInt8} : (if 4 ≤ v then max b q else b) =
        (if 4 ≤ v then max (if 4 ≤ v' then max b p else b) q else if 4 ≤ v' then max b p else b) ↔
      IndexKept b p q v' v := by
  unfold IndexKept
  by_cases hv : 4 ≤ v
  · by_cases hv' : 4 ≤ v'
    · simp [hv, hv', max_eq_iff_u32]
    · simp [hv, hv']
  · by_cases hv' : 4 ≤ v'
    · simp [hv, hv', max_self_iff_u32]
    · simp [hv, hv']

theorem tipKept_iff {env : Env} {base : Cache} (h : u'.tip = u.tip) :
    (base.tipped env u').tip = ((base.tipped env prev).tipped env u).tip ↔
      TipKept env base prev u := by
  simp only [tipped, TipKept, h]
  by_cases hu : u.tip = defaultBlockheader
  · by_cases hp : prev.tip = defaultBlockheader
    · simp [hu, hp]
    · simp [hu, hp, eq_comm]
  · simp [hu]

theorem tipped_same_iff {env : Env} {base : Cache} (htip : u'.tip = u.tip)
    (hversion : u'.version = u.version) (hlast : u'.lastUnused = u.lastUnused)
    (htimestamps : u'.timestamps = prev.timestamps ++ u.timestamps) :
    (base.tipped env u').Same ((base.tipped env prev).tipped env u) ↔ TipKept env base prev u ∧
      IndexKept base.lastUnusedExternal prev.lastUnused.external u.lastUnused.external
        prev.version u.version ∧
      IndexKept base.lastUnusedInternal prev.lastUnused.internal u.lastUnused.internal
        prev.version u.version := by
  rw [← tipKept_iff htip, ← indexKept_iff, ← indexKept_iff, ← hversion, ← hlast]
  refine ⟨fun h => ⟨h.tip, ?_, ?_⟩, fun h => ?_⟩
  · simpa only [tipped, hversion, hlast] using h.lastUnusedExternal
  · simpa only [tipped, hversion, hlast] using h.lastUnusedInternal
  · refine ⟨rfl, .refl _, .refl _, .refl _, rfl, ?_, .refl _, h.1, ?_, ?_, ?_⟩
    · unfold tipped
      cases env.utxoOnly <;> exact .refl _
    · show HashMap.Same (base.timestamps.extend u'.timestamps)
        ((base.timestamps.extend prev.timestamps).extend u.timestamps)
      rw [htimestamps, HashMap.extend_append]
    · simpa only [tipped, hversion, hlast] using h.2.1
    · simpa only [tipped, hversion, hlast] using h.2.2

/-- `u'` is what is stored when `u` overwrites `prev`. -/
structure Overwrites (prev u u' : Update) : Prop where
  prevTip : prev.onlyTip = true
  newTip : u.onlyTip = true
  storedTip : u'.onlyTip = true
  status : u'.wolletStatus = 0 ∨ u'.wolletStatus = prev.wolletStatus
  tip : u'.tip = u.tip
  version : u'.version = u.version
  lastUnused : u'.lastUnused = u.lastUnused
  timestamps : u'.timestamps = prev.timestamps ++ u.timestamps

theorem coalesce_overwrites {env : Env} {w : Wollet}
    (hprev : getUpdate env w (w.nextUpdateIndex - 1) = .ok (some prev))
    (hc : coalesce env w u = some u') : Overwrites prev u u'.asStored := by
  obtain ⟨htip, -, prev', hprev', hprevTip, rfl⟩ := coalesce_eq_some.1 hc
  cases hprev.symm.trans hprev'
  unfold Update.asStored
  split
  · exact ⟨hprevTip, htip, htip, .inr rfl, rfl, rfl, rfl, rfl⟩
  · exact ⟨hprevTip, htip, htip, .inl rfl, rfl, rfl, rfl, rfl⟩

section Overwrite

variable {env : Env} {prev u u' : Update} {c : Cache} {scripts : List ScriptEntry}

theorem onlyTip_scripts (h : u.onlyTip = true)
    (hs : computeBlindingPubkeyIfMissing env.descriptor u.scriptsWithBlindingPubkey =
      .ok scripts) : scripts = [] := by
  rw [(onlyTip_iff.1 h).2.2.2.2.1] at hs
  cases hs
  rfl

theorem Overwrites.accepts_iff (h : Overwrites prev u u') (hprev : Accepts env prev c scripts) :
    Accepts env u' c [] ↔ (u.tip = defaultBlockheader ∨ ¬ u.tip.height + 1 < c.tip.1) := by
  rw [← h.tip]
  refine ⟨fun ha => ha.tip, fun htip => ⟨?_, ?_, htip⟩⟩
  · rcases h.status with hs | hs
    · exact .inl hs
    · rw [hs]
      exact hprev.status
  · rw [(onlyTip_iff.1 h.storedTip).2.2.2.2.1]
    rfl

theorem Overwrites.same_iff (h : Overwrites prev u u') (store store₁ store₂ : TxsStore) :
    (c.applied env u' [] store).Same ((c.applied env prev [] store₁).applied env u [] store₂) ↔
      TipKept env c prev u ∧
      IndexKept c.lastUnusedExternal prev.lastUnused.external u.lastUnused.external
        prev.version u.version ∧
      IndexKept c.lastUnusedInternal prev.lastUnused.internal u.lastUnused.internal
        prev.version u.version := by
  have hone : (c.applied env u' [] store).Same (c.tipped env u') :=
    applied_onlyTip h.storedTip c store
  have htwo : ((c.applied env prev [] store₁).applied env u [] store₂).Same
      ((c.tipped env prev).tipped env u) :=
    (applied_onlyTip h.newTip _ _).trans (applied_onlyTip h.prevTip _ _).tipped
  rw [← tipped_same_iff h.tip h.version h.lastUnused h.timestamps]
  exact ⟨fun hs => hone.symm.trans (hs.trans htwo), fun hs => hone.trans (hs.trans htwo.symm)⟩

theorem CoalesceKeeps.same {c' : Cache} (hs : c.Same c') (h : CoalesceKeeps env c prev u) :
    CoalesceKeeps env c' prev u := by
  refine ⟨?_, ?_, ?_, ?_⟩
  · rw [← hs.tip]
    exact h.accepted
  · rw [TipKept, ← hs.tip]
    exact h.tip
  · rw [← hs.lastUnusedExternal]
    exact h.external
  · rw [← hs.lastUnusedInternal]
    exact h.internal

end Overwrite

/-! ## Rebuilding -/

/-- The wallet keeps its updates: on a store that keeps what it is given, without merging, and
with the transactions in memory. -/
structure KeepsUpdates (env : Env) : Prop where
  real : env.fakeUpdatesStore = false
  sound : ∀ n, env.storeFails n = false
  unmerged : env.mergeThreshold = none
  inMemory : env.txsStoreIsPersisted = false

/-- The wallet rebuilt from the update store has the content and the status of the live one. -/
def Restores (env : Env) (w : Wollet) : Prop :=
  ∃ w', build env (w.disk.reopened env) = .ok () w' ∧ w'.cache.Same w.cache ∧
    w'.status env = w.status env

section Run

variable {env : Env} (henv : KeepsUpdates env)

include henv

variable {w w' : Wollet}

theorem settle_ok_iff {n : Nat} :
    settle env n w = .ok () w' ↔ w' = { w with nextUpdateIndex := n } := by
  rw [settle, mergeUpdates, henv.unmerged, bind_ok_iff]
  refine ⟨fun h => ?_, fun h => ?_⟩
  · obtain ⟨m, w₁, hpure, hmod⟩ := h
    obtain ⟨rfl, rfl⟩ := pure_ok_iff.1 hpure
    exact (modify_ok_iff.1 hmod).symm
  · exact ⟨n, w, pure_ok_iff.2 ⟨rfl, rfl⟩, modify_ok_iff.2 h.symm⟩

/-- **Rebuilding is replaying the stored updates.** -/
theorem restores_iff_replay {us : List Update} (hlog : Logged env w us) :
    Restores env w ↔ ∃ c store, replay env (.default, ∅) us = some (c, store) ∧ c.Same w.cache := by
  have hdisk : w.disk.reopened env = { w.disk with txs := ∅, txids := ∅ } := by
    rw [Disk.reopened, henv.inMemory]
    rfl
  have hlog' : Logged env (.fresh (w.disk.reopened env)) us := by
    refine hlog.congr ?_
    rw [hdisk]
    rfl
  have hstart : replay env (.default, ∅) us =
      replay env ((Wollet.fresh (w.disk.reopened env)).cache,
        (Wollet.fresh (w.disk.reopened env)).disk.txs) us := by
    rw [hdisk]
    rfl
  rw [hstart]
  have hensure : (!env.txsStoreIsPersisted || env.mergeThreshold == some 1) = true := by
    rw [henv.inMemory]
    rfl
  -- the txids that are added last are there already
  have htxids {w₁ : Wollet} (h : applyAll env us (.fresh (w.disk.reopened env)) = .ok () w₁) :
      w₁.cache.txids ∪ w₁.disk.txids = w₁.cache.txids := by
    refine Finset.union_eq_left.2 (applyAll_txids h ?_)
    rw [hdisk]
    exact Finset.Subset.refl _
  refine ⟨fun h => ?_, fun h => ?_⟩
  · obtain ⟨w', hbuild, hsame, -⟩ := h
    obtain ⟨-, hbuild⟩ := ensureElse_bind_ok_iff.1 hbuild
    obtain ⟨_, w₂, hrestore, hmod⟩ := bind_ok_iff.1 hbuild
    obtain ⟨w₁, hall, hsettle⟩ := (restoreUpdates_ok_iff hlog').1 hrestore
    obtain rfl := (settle_ok_iff henv).1 hsettle
    obtain rfl := modify_ok_iff.1 hmod
    refine ⟨w₁.cache, w₁.disk.txs, (applyAll_ok hall).1, ?_⟩
    simp only [htxids hall] at hsame
    exact hsame
  · obtain ⟨c, store, hreplay, hsame⟩ := h
    obtain ⟨w₁, hall, heq⟩ := applyAll_of_replay henv.sound hreplay
    obtain ⟨rfl, rfl⟩ := Prod.mk.inj heq
    have hcache : { w₁.cache with txids := w₁.cache.txids ∪ w₁.disk.txids } = w₁.cache := by
      rw [htxids hall]
    refine ⟨{ w₁ with nextUpdateIndex := us.length }, ?_, hsame, ?_⟩
    · refine ensureElse_bind_ok_iff.2 ⟨hensure, bind_ok_iff.2 ⟨(), _,
        (restoreUpdates_ok_iff hlog').2 ⟨w₁, hall, (settle_ok_iff henv).2 rfl⟩, ?_⟩⟩
      refine modify_ok_iff.2 ?_
      dsimp only
      rw [hcache]
    · exact congrArg env.statusHash hsame.statusView

theorem persist_new {u : Update} (hc : coalesce env w u = none) (h : persist env u w = .ok () w') :
    w'.disk.updates = w.disk.updates.insert (updateKey w.nextUpdateIndex) (u.serialize env.codecs) ∧
      w'.nextUpdateIndex = w.nextUpdateIndex + 1 := by
  have hcleared : u.cleared env = u := by
    rw [Update.cleared, henv.inMemory]
    rfl
  rw [persist, get_bind, hc] at h
  obtain ⟨_, w₁, hset, h⟩ := bind_ok_iff.1 (get_bind_ok_iff.1 h)
  rw [hcleared] at hset
  obtain rfl := (settle_ok_iff henv).1 (modify_bind_ok_iff.1 h)
  exact ⟨(setUpdate_ok henv.real hset).1, rfl⟩

theorem persist_coalesced {u u' : Update} (hc : coalesce env w u = some u')
    (h : persist env u w = .ok () w') : w'.disk.updates =
        w.disk.updates.insert (updateKey (w.nextUpdateIndex - 1)) (u'.serialize env.codecs) ∧
      w'.nextUpdateIndex = w.nextUpdateIndex := by
  rw [persist, get_bind, hc] at h
  exact setUpdate_ok henv.real h

end Run

/-! ## Sequences of updates -/

/-- A live wallet, with the cache it had before its last stored update was made. -/
structure Session where
  wollet : Wollet
  base : Cache

/-- The session after an update that leaves the wallet `w'`. -/
def Session.next (env : Env) (s : Session) (u : Update) (w' : Wollet) : Session where
  wollet := w'
  base := if (coalesce env s.wollet u).isSome then s.base else s.wollet.cache

/-- `Sessions env calls s`: successful `apply_update` calls take a new wallet to `s`. Each is
listed with the session it was made on. -/
inductive Sessions (env : Env) : List (Session × Update) → Session → Prop
  | start : Sessions env [] ⟨.fresh .empty, .default⟩
  | update {calls : List (Session × Update)} {s : Session} {u : Update} {w' : Wollet}
      (h : Sessions env calls s) (hok : applyUpdate env u s.wollet = .ok () w') :
      Sessions env (calls ++ [(s, u)]) (s.next env u w')

/-- If the update overwrites a stored one, it keeps what that one said. -/
def Keeps (env : Env) (s : Session) (u : Update) : Prop :=
  (coalesce env s.wollet u).isSome →
    ∀ prev, getUpdate env s.wollet (s.wollet.nextUpdateIndex - 1) = .ok (some prev) →
      CoalesceKeeps env s.base prev u

def written (env : Env) (w : Wollet) (u : Update) : Update :=
  ((coalesce env w u).getD u).asStored

/-- The stored updates `us` restore the session, and all but the last restore its base. -/
structure Restorable (env : Env) (s : Session) (us : List Update) : Prop where
  logged : Logged env s.wollet us
  next : s.wollet.nextUpdateIndex = us.length
  replayed : ∃ c store, replay env (.default, ∅) us = some (c, store) ∧
    c.Same s.wollet.cache ∧ HashMap.Same store s.wollet.disk.txs
  base : ∀ prior prev, us = prior ++ [prev] →
    ∃ c store, replay env (.default, ∅) prior = some (c, store) ∧ c.Same s.base

theorem restorable_start (env : Env) : Restorable env ⟨.fresh .empty, .default⟩ [] where
  logged := fun i => by simp [getUpdate, Wollet.fresh, Disk.empty]
  next := rfl
  replayed := ⟨_, _, rfl, .refl _, .refl _⟩
  base := fun prior prev h => absurd h (by simp)

section Step

variable {env : Env} (henv : KeepsUpdates env) {s : Session} {us : List Update} {u : Update}
  {w' : Wollet}

include henv

/-- **A new update keeps the session restorable.** -/
theorem Restorable.new (h : Restorable env s us) (hc : coalesce env s.wollet u = none)
    (hu : u.asStored.Storable env.codecs) (hok : applyUpdate env u s.wollet = .ok () w') :
    Restorable env (s.next env u w') (us ++ [u.asStored]) := by
  obtain ⟨scripts, ha, hpersist⟩ := applyUpdate_persist hok
  have hframe := persist_framed hpersist
  have hc' : coalesce env (s.wollet.applied env u scripts) u = none := hc
  obtain ⟨hupdates, hnext⟩ := persist_new henv hc' hpersist
  obtain ⟨c, store, hreplay, hsame, hstore⟩ := h.replayed
  have hstep : replay env (.default, ∅) (us ++ [u.asStored]) =
      some (c.applied env u scripts (store.extend u.newTxs.txs), store.extend u.newTxs.txs) := by
    rw [replay_append, hreplay, Option.bind_some, replay_singleton, replayStep_eq_some]
    refine ⟨scripts, (ha.same hsame.symm).asStored, ?_⟩
    rw [applied_asStored, newTxs_asStored]
  refine ⟨?_, ?_, ⟨_, _, hstep, ?_, ?_⟩, ?_⟩
  · refine h.logged.append henv.real hu ?_
    rw [← h.next]
    exact hupdates
  · rw [length_append, length_singleton, ← h.next]
    exact hnext
  · show Cache.Same _ w'.cache
    rw [hframe.cache]
    exact hsame.applied (hstore.extend _)
  · show HashMap.Same _ w'.disk.txs
    rw [hframe.txs]
    exact hstore.extend _
  · intro prior prev heq
    obtain ⟨rfl, -⟩ := append_inj' heq rfl
    refine ⟨c, store, hreplay, ?_⟩
    rw [Session.next, hc]
    exact hsame

omit henv in
theorem Restorable.coalesce_prev {u' : Update} (h : Restorable env s us)
    (hc : coalesce env s.wollet u = some u') : ∃ prior prev, us = prior ++ [prev] ∧
      getUpdate env s.wollet (s.wollet.nextUpdateIndex - 1) = .ok (some prev) := by
  obtain ⟨-, -, prev, hprev, -⟩ := coalesce_eq_some.1 hc
  refine ⟨us.dropLast, prev, ?_, hprev⟩
  have hlast := Except.ok.inj ((h.logged (us.length - 1)).symm.trans (h.next ▸ hprev))
  rw [← getLast?_eq_getElem?] at hlast
  exact (dropLast_append_getLast? prev hlast).symm

/-- **An overwriting update restores exactly when it keeps what it overwrites**, and then the
session stays restorable. -/
theorem Restorable.coalesced {prior : List Update} {prev u' : Update}
    (h : Restorable env s (prior ++ [prev])) (hc : coalesce env s.wollet u = some u')
    (hu : u'.asStored.Storable env.codecs) (hok : applyUpdate env u s.wollet = .ok () w') :
    (Restores env w' ↔ CoalesceKeeps env s.base prev u) ∧
      (Restores env w' → Restorable env (s.next env u w') (prior ++ [u'.asStored])) := by
  obtain ⟨prior', prev', heq, hprev⟩ := h.coalesce_prev hc
  obtain ⟨rfl, hlast⟩ := append_inj' heq rfl
  cases hlast
  have hover := coalesce_overwrites hprev hc
  obtain ⟨c₀, store₀, hprior, hbase⟩ := h.base prior prev rfl
  obtain ⟨scripts, ha, hpersist⟩ := applyUpdate_persist hok
  obtain rfl := onlyTip_scripts hover.newTip ha.scripts
  have hframe := persist_framed hpersist
  have hc' : coalesce env (s.wollet.applied env u []) u = some u' := hc
  obtain ⟨hupdates, hnext⟩ := persist_coalesced henv hc' hpersist
  have hindex : s.wollet.nextUpdateIndex = prior.length + 1 := by
    rw [h.next, length_append, length_singleton]
  have hlog : Logged env w' (prior ++ [u'.asStored]) := by
    refine h.logged.replace henv.real hu (hupdates.trans ?_)
    show AList.insert (updateKey (s.wollet.nextUpdateIndex - 1)) _ _ = _
    rw [hindex]
    rfl
  -- the live cache is the replayed one with both updates
  obtain ⟨c, store, hreplay, hsame, hstore⟩ := h.replayed
  rw [replay_append, hprior, Option.bind_some, replay_singleton, replayStep_eq_some] at hreplay
  obtain ⟨scripts₁, ha₁, hpair⟩ := hreplay
  obtain ⟨rfl, rfl⟩ := Prod.mk.inj hpair
  obtain rfl := onlyTip_scripts hover.prevTip ha₁.scripts
  have hlive : w'.cache.Same
      ((c₀.applied env prev [] (store₀.extend prev.newTxs.txs)).applied env u []
        (s.wollet.disk.txs.extend u.newTxs.txs)) := by
    rw [hframe.cache]
    exact hsame.symm.applied (.refl _)
  have hiff : Restores env w' ↔ CoalesceKeeps env c₀ prev u := by
    rw [restores_iff_replay henv hlog, replay_append, hprior, Option.bind_some, replay_singleton]
    refine ⟨fun hr => ?_, fun hk => ?_⟩
    · obtain ⟨d, dstore, hd, hdsame⟩ := hr
      obtain ⟨scripts₂, ha₂, hpair⟩ := replayStep_eq_some.1 hd
      obtain ⟨rfl, rfl⟩ := Prod.mk.inj hpair
      obtain rfl := onlyTip_scripts hover.storedTip ha₂.scripts
      obtain ⟨htip, hext, hint⟩ := (hover.same_iff _ _ _).1 (hdsame.trans hlive)
      exact ⟨(hover.accepts_iff ha₁).1 ha₂, htip, hext, hint⟩
    · refine ⟨_, _, replayStep_eq_some.2 ⟨[], (hover.accepts_iff ha₁).2 hk.accepted, rfl⟩, ?_⟩
      exact ((hover.same_iff _ _ _).2 ⟨hk.tip, hk.external, hk.internal⟩).trans hlive.symm
  refine ⟨hiff.trans ⟨fun hk => hk.same hbase, fun hk => hk.same hbase.symm⟩, fun hr => ?_⟩
  obtain ⟨d, dstore, hd, hdsame⟩ := (restores_iff_replay henv hlog).1 hr
  refine ⟨hlog, ?_, ⟨d, dstore, hd, hdsame, ?_⟩, ?_⟩
  · rw [length_append, length_singleton, ← hindex]
    exact hnext
  · rw [replay_append, hprior, Option.bind_some, replay_singleton, replayStep_eq_some] at hd
    obtain ⟨scripts₂, -, hpair⟩ := hd
    obtain ⟨rfl, rfl⟩ := Prod.mk.inj hpair
    rw [(onlyTip_iff.1 hover.prevTip).1] at hstore
    rw [(onlyTip_iff.1 hover.storedTip).1]
    show HashMap.Same _ w'.disk.txs
    rw [hframe.txs]
    refine hstore.trans ?_
    show HashMap.Same _ (s.wollet.disk.txs.extend u.newTxs.txs)
    rw [(onlyTip_iff.1 hover.newTip).1]
    exact .refl _
  · intro prior' prev' heq'
    obtain ⟨rfl, -⟩ := append_inj' heq' rfl
    refine ⟨c₀, store₀, hprior, ?_⟩
    rw [Session.next, hc]
    exact hbase

theorem Restorable.restores (h : Restorable env s us) : Restores env s.wollet := by
  obtain ⟨c, store, hreplay, hsame, -⟩ := h.replayed
  exact (restores_iff_replay henv h.logged).2 ⟨c, store, hreplay, hsame⟩

/-- **One update**: the wallet after it can be restored exactly when the update keeps what it
overwrites, if anything. -/
theorem Restorable.step (h : Restorable env s us)
    (hu : (written env s.wollet u).Storable env.codecs)
    (hok : applyUpdate env u s.wollet = .ok () w') : (Restores env w' ↔ Keeps env s u) ∧
      (Restores env w' → ∃ us', Restorable env (s.next env u w') us') := by
  cases hc : coalesce env s.wollet u with
  | none =>
    rw [written, hc] at hu
    have hnew := h.new henv hc hu hok
    refine ⟨⟨fun _ hsome => ?_, fun _ => hnew.restores henv⟩, fun _ => ⟨_, hnew⟩⟩
    rw [hc] at hsome
    exact absurd hsome (by simp)
  | some u' =>
    rw [written, hc] at hu
    obtain ⟨prior, prev, rfl, hprev⟩ := h.coalesce_prev hc
    obtain ⟨hiff, hnext⟩ := h.coalesced henv hc hu hok
    refine ⟨hiff.trans ⟨fun hk _ prev' hprev' => ?_, fun hk => hk (by rw [hc]; rfl) prev hprev⟩,
      fun hr => ⟨_, hnext hr⟩⟩
    cases hprev.symm.trans hprev'
    exact hk

end Step

/-- **Restoring after any sequence of updates.** All wallets of a sequence of storable updates can
be rebuilt from the store with their content and status, exactly when every update that
overwrites another keeps what that one said. -/
theorem restores_iff {env : Env} (henv : KeepsUpdates env) {calls : List (Session × Update)}
    {s : Session} (h : Sessions env calls s)
    (hstored : ∀ e ∈ calls, (written env e.1.wollet e.2).Storable env.codecs) :
    (∀ v ∈ calls.map Prod.fst ++ [s], Restores env v.wollet) ↔ ∀ e ∈ calls, Keeps env e.1 e.2 := by
  -- along the way, a sequence that can be restored has a restorable end
  suffices hall : ((∀ v ∈ calls.map Prod.fst ++ [s], Restores env v.wollet) ↔
      ∀ e ∈ calls, Keeps env e.1 e.2) ∧
      ((∀ v ∈ calls.map Prod.fst ++ [s], Restores env v.wollet) →
        ∃ us, Restorable env s us) from hall.1
  induction h with
  | start =>
    have hstart := restorable_start env
    refine ⟨?_, fun _ => ⟨[], hstart⟩⟩
    simpa using hstart.restores henv
  | @update calls s u w' hprev hok ih =>
    obtain ⟨hiff, hinv⟩ := ih fun e he => hstored e (mem_append_left _ he)
    have hu := hstored (s, u) (mem_append_right _ (mem_singleton.2 rfl))
    have hstates : (∀ v ∈ (calls ++ [(s, u)]).map Prod.fst ++ [s.next env u w'],
        Restores env v.wollet) ↔
        (∀ v ∈ calls.map Prod.fst ++ [s], Restores env v.wollet) ∧ Restores env w' := by
      simp only [map_append, map_cons, map_nil, forall_mem_append,
        forall_mem_singleton, Session.next]
    have hcalls : (∀ e ∈ calls ++ [(s, u)], Keeps env e.1 e.2) ↔
        (∀ e ∈ calls, Keeps env e.1 e.2) ∧ Keeps env s u := by
      simp only [forall_mem_append, forall_mem_singleton]
    rw [hstates, hcalls, ← hiff]
    refine ⟨and_congr_right fun hall => ?_, fun hall => ?_⟩
    · obtain ⟨us, hrest⟩ := hinv hall
      exact (hrest.step henv hu hok).1
    · obtain ⟨us, hrest⟩ := hinv hall.1
      exact (hrest.step henv hu hok).2 hall.2

/-! ## A tip that is lost -/

namespace LostTip

def env : Env := { Concrete.env (fun _ => 7) [[1]] with fakeUpdatesStore := false }

theorem keepsUpdates : KeepsUpdates env := ⟨rfl, fun _ => rfl, rfl, rfl⟩

def tipUpdate (tip : BlockHeader) : Update := .bare 0 [] tip .default

def moved : Update := tipUpdate (Concrete.header 10)

def built : Update := tipUpdate defaultBlockheader

def start : Session := ⟨.fresh .empty, .default⟩

def middle : Session := start.next env moved (Concrete.updated env moved start.wollet)

def last : Session := middle.next env built (Concrete.updated env built middle.wollet)

theorem sessions : Sessions env [(start, moved), (middle, built)] last :=
  (Sessions.start.update (Concrete.applyUpdate_updated (by decide +kernel))).update
    (Concrete.applyUpdate_updated (by decide +kernel))

theorem storable : ∀ e ∈ [(start, moved), (middle, built)],
    (written env e.1.wollet e.2).Storable env.codecs := by
  have hfirst : written env start.wollet moved = moved := rfl
  have hsecond : written env middle.wollet built = built := by decide +kernel
  intro e he
  rcases mem_cons.1 he with rfl | he
  · rw [hfirst]
    exact storable_bare _ (Nat.two_pow_pos 64) (by simp) (by decide)
  · rw [mem_singleton.1 he, hsecond]
    exact storable_bare _ (Nat.two_pow_pos 64) (by simp) (by decide)

theorem rebuilt_tip : (match build env (last.wollet.disk.reopened env) with
    | .ok _ w => w.cache.tip.1
    | .error _ _ => 0) = 0 := by
  decide +kernel

/-- The second update overwrites the first, and the tip is lost. -/
theorem tip_lost : Sessions env [(start, moved), (middle, built)] last ∧
    last.wollet.cache.tip.1 = 10 ∧ ¬ Restores env last.wollet := by
  refine ⟨sessions, by decide +kernel, fun h => ?_⟩
  obtain ⟨w', hbuild, hsame, -⟩ := h
  have htip := rebuilt_tip
  rw [hbuild] at htip
  have hlive : last.wollet.cache.tip.1 = 10 := by decide +kernel
  have hlost := congrArg Prod.fst hsame.tip
  rw [hlive] at hlost
  exact absurd (htip.symm.trans hlost) (by decide)

theorem restores_iff_lostTip : (∀ v ∈ [start, middle, last], Restores env v.wollet) ↔
      ∀ e ∈ [(start, moved), (middle, built)], Keeps env e.1 e.2 :=
  restores_iff keepsUpdates sessions storable

end LostTip

end Swk
