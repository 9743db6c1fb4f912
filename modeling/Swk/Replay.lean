import Swk.Persister
import Swk.Same

/-!
# Rebuilding a wallet from its updates

`WolletBuilder::build` applies the stored updates one after the other to an empty cache. This
file gives the meaning of that loop: with the updates `us` in the store (`Logged`), building
succeeds exactly when every update of `us` is accepted in turn (`replay`), and the cache it ends
with is the one the replay computes.

Replaying does not depend on the order inside hash maps, so it takes caches with the same content
to caches with the same content (`replay_same`).
-/

namespace Swk

open List

/-! ## What is in the store -/

/-- The update that the bytes of `u` stand for: version 0 has no room for the status. -/
def Update.asStored (u : Update) : Update :=
  if 1 ≤ u.version then u else { u with wolletStatus := 0 }

theorem serialize_asStored (c : Codecs) (u : Update) : u.asStored.serialize c = u.serialize c := by
  unfold Update.asStored
  split
  · rfl
  · rename_i h
    simp only [Update.serialize, emitFrom, if_neg h]

variable {u : Update} {env : Env} {w w' : Wollet} {us : List Update} {i fuel : Nat}

theorem deserialize_asStored {c : Codecs} (h : u.asStored.Storable c) :
    Update.deserialize c (u.serialize c) = .ok u.asStored := by
  rw [← serialize_asStored]
  exact deserialize_serialize c h

theorem applied_asStored (env : Env) (u : Update) (scripts : List ScriptEntry) (store : TxsStore)
    (c : Cache) : c.applied env u.asStored scripts store = c.applied env u scripts store := by
  unfold Update.asStored
  split <;> rfl

theorem newTxs_asStored (u : Update) : u.asStored.newTxs = u.newTxs := by
  unfold Update.asStored
  split <;> rfl

theorem Accepts.asStored {c : Cache} {scripts : List ScriptEntry}
    (h : Accepts env u c scripts) : Accepts env u.asStored c scripts := by
  unfold Update.asStored
  split
  · exact h
  · exact ⟨Or.inl rfl, h.scripts, h.tip⟩

/-- The store holds the updates `us`, from index 0 on. -/
def Logged (env : Env) (w : Wollet) (us : List Update) : Prop :=
  ∀ i, getUpdate env w i = .ok us[i]?

theorem getUpdate_congr (h : w'.disk.updates = w.disk.updates)
    (i : Nat) : getUpdate env w' i = getUpdate env w i := by
  rw [getUpdate, getUpdate, h]

theorem Logged.congr (h : Logged env w us)
    (hw : w'.disk.updates = w.disk.updates) : Logged env w' us :=
  fun i => (getUpdate_congr hw i).trans (h i)

theorem getUpdate_insert (hfake : env.fakeUpdatesStore = false)
    {u' : Update} (hu : Update.deserialize env.codecs (u.serialize env.codecs) = .ok u')
    (h : w'.disk.updates = w.disk.updates.insert (updateKey i) (u.serialize env.codecs)) (j : Nat) :
    getUpdate env w' j = if j = i then .ok (some u') else getUpdate env w j := by
  rw [getUpdate, getUpdate, hfake, h]
  simp only [Bool.false_eq_true, if_false]
  by_cases hij : j = i
  · subst hij
    rw [AList.lookup_insert, if_pos rfl]
    dsimp only
    rw [hu]
  · have hkey : updateKey j ≠ updateKey i := fun hc => hij (updateKey_injective hc)
    rw [AList.lookup_insert_ne hkey, if_neg hij]

theorem getElem?_append_of_ne {α : Type} {l : List α} {a : α} {j : Nat} (hj : j ≠ l.length) :
    (l ++ [a])[j]? = l[j]? := by
  rcases Nat.lt_or_gt_of_ne hj with hlt | hgt
  · exact getElem?_append_left hlt
  · rw [getElem?_eq_none (by simp; omega), getElem?_eq_none hgt.le]

section Put

variable (hfake : env.fakeUpdatesStore = false) (hu : u.asStored.Storable env.codecs)
  (h : w'.disk.updates = w.disk.updates.insert (updateKey us.length) (u.serialize env.codecs))

include hfake hu h

theorem logged_put (hlog : ∀ j ≠ us.length, getUpdate env w j = .ok us[j]?) :
    Logged env w' (us ++ [u.asStored]) := by
  intro j
  rw [getUpdate_insert hfake (deserialize_asStored hu) h]
  by_cases hj : j = us.length
  · rw [if_pos hj, hj, getElem?_append_right (Nat.le_refl _), Nat.sub_self]
    rfl
  · rw [if_neg hj, hlog j hj, getElem?_append_of_ne hj]

theorem Logged.append (hlog : Logged env w us) :
    Logged env w' (us ++ [u.asStored]) :=
  logged_put hfake hu h fun j _ => hlog j

theorem Logged.replace {prev : Update} (hlog : Logged env w (us ++ [prev])) :
    Logged env w' (us ++ [u.asStored]) :=
  logged_put hfake hu h fun j hj => (hlog j).trans (by rw [getElem?_append_of_ne hj])

end Put

theorem Logged.removeLast (hlog : Logged env w (us ++ [u]))
    (h : w'.disk.updates = w.disk.updates.erase (updateKey us.length)) : Logged env w' us := by
  intro j
  have hj := hlog j
  rw [getUpdate, h]
  rw [getUpdate] at hj
  by_cases hij : j = us.length
  · rw [hij, AList.lookup_erase, ite_self, getElem?_eq_none (Nat.le_refl _)]
  · have hkey : updateKey j ≠ updateKey us.length := fun hc => hij (updateKey_injective hc)
    rw [AList.lookup_erase_ne hkey, hj, getElem?_append_of_ne hij]

theorem Logged.length_le (h : Logged env w us) : us.length ≤ w.disk.updates.entries.length := by
  have hsub : (range us.length).map updateKey ⊆ w.disk.updates.keys := by
    intro key hkey
    obtain ⟨i, hi, rfl⟩ := mem_map.1 hkey
    have hget := h i
    rw [getElem?_eq_getElem (mem_range.1 hi), getUpdate] at hget
    rw [← AList.mem_keys, HashMap.mem_iff]
    by_contra hnone
    have hlookup : w.disk.updates.lookup (updateKey i) = none := by
      refine Option.eq_none_iff_forall_ne_some.2 fun bytes hb => ?_
      exact hnone ⟨bytes, hb⟩
    rw [hlookup, ite_self] at hget
    exact absurd hget (by simp)
  have hnodup : ((range us.length).map updateKey).Nodup :=
    nodup_range.map fun i j hij => updateKey_injective hij
  have hle := (hnodup.subperm hsub).length_le
  rwa [length_map, length_range, AList.keys, keys, length_map] at hle

/-! ## The loop -/

def applyAll (env : Env) : List Update → WolletM Unit
  | [] => pure ()
  | u :: us => do
      applyUpdateInner env u
      applyAll env us

/-- The end of `restore_updates`: merge if it is time to and set the next index. -/
def settle (env : Env) (n : Nat) : WolletM Unit := do
  let next ← mergeUpdates env n
  modify fun w => { w with nextUpdateIndex := next }

theorem applyUpdateInner_updates
    (h : applyUpdateInner env u w = .ok () w') : w'.disk.updates = w.disk.updates := by
  obtain ⟨scripts, -, rfl⟩ := applyUpdateInner_ok h
  rfl

theorem restoreLoop_some (h : getUpdate env w i = .ok (some u)) : restoreLoop env (fuel + 1) i w =
      (applyUpdateInner env u >>= fun _ => restoreLoop env fuel (i + 1)) w := by
  show EStateM.bind (liftExcept (getUpdate env w i)) _ w = _
  rw [h]
  rfl

theorem restoreLoop_none
    (h : getUpdate env w i = .ok none) : restoreLoop env (fuel + 1) i w = settle env i w := by
  show EStateM.bind (liftExcept (getUpdate env w i)) _ w = _
  rw [h]
  rfl

/-- **The loop applies every stored update and then settles.** -/
theorem restoreLoop_ok_iff (h : Logged env w us) (hi : i ≤ us.length)
    (hfuel : us.length - i < fuel) : restoreLoop env fuel i w = .ok () w' ↔
      ∃ w₁, applyAll env (us.drop i) w = .ok () w₁ ∧ settle env us.length w₁ = .ok () w' := by
  induction fuel generalizing i w with
  | zero => omega
  | succ fuel ih =>
    have hget := h i
    rcases Nat.lt_or_eq_of_le hi with hlt | rfl
    · rw [getElem?_eq_getElem hlt] at hget
      rw [restoreLoop_some hget, drop_eq_getElem_cons hlt, applyAll, bind_ok_iff]
      refine ⟨fun hrun => ?_, fun hrun => ?_⟩
      · obtain ⟨_, w₂, happly, hrest⟩ := hrun
        have hlog := h.congr (applyUpdateInner_updates happly)
        obtain ⟨w₁, hall, hsettle⟩ := (ih hlog hlt (by omega)).1 hrest
        exact ⟨w₁, bind_ok_iff.2 ⟨(), w₂, happly, hall⟩, hsettle⟩
      · obtain ⟨w₁, hall, hsettle⟩ := hrun
        obtain ⟨_, w₂, happly, hall⟩ := bind_ok_iff.1 hall
        have hlog := h.congr (applyUpdateInner_updates happly)
        exact ⟨(), w₂, happly, (ih hlog hlt (by omega)).2 ⟨w₁, hall, hsettle⟩⟩
    · rw [getElem?_eq_none (Nat.le_refl _)] at hget
      rw [restoreLoop_none hget, drop_length, applyAll]
      refine ⟨fun hrun => ⟨w, rfl, hrun⟩, fun hrun => ?_⟩
      obtain ⟨w₁, hpure, hsettle⟩ := hrun
      obtain ⟨-, rfl⟩ := pure_ok_iff.1 hpure
      exact hsettle

/-- `restore_updates` replays the stored updates. -/
theorem restoreUpdates_ok_iff (h : Logged env w us) : restoreUpdates env w = .ok () w' ↔
      ∃ w₁, applyAll env us w = .ok () w₁ ∧ settle env us.length w₁ = .ok () w' := by
  have hfuel := h.length_le
  exact restoreLoop_ok_iff h (Nat.zero_le _) (by omega)

/-! ## Replaying -/

/-- Apply one update to a cache and a transaction store, on stores that never fail. -/
def replayStep (env : Env) (s : Cache × TxsStore) (u : Update) : Option (Cache × TxsStore) :=
  match computeBlindingPubkeyIfMissing env.descriptor u.scriptsWithBlindingPubkey with
  | .ok scripts =>
    if (u.wolletStatus = 0 ∨ env.statusHash s.1.statusView = u.wolletStatus) ∧
        (u.tip = defaultBlockheader ∨ ¬ u.tip.height + 1 < s.1.tip.1) then
      let store := s.2.extend u.newTxs.txs
      some (s.1.applied env u scripts store, store)
    else none
  | .error _ => none

def replay (env : Env) (s : Cache × TxsStore) (us : List Update) : Option (Cache × TxsStore) :=
  us.foldlM (replayStep env) s

theorem replayStep_eq_some {s s' : Cache × TxsStore} :
    replayStep env s u = some s' ↔ ∃ scripts, Accepts env u s.1 scripts ∧
      s' = (s.1.applied env u scripts (s.2.extend u.newTxs.txs), s.2.extend u.newTxs.txs) := by
  unfold replayStep
  cases hsc : computeBlindingPubkeyIfMissing env.descriptor u.scriptsWithBlindingPubkey with
  | error e =>
    refine ⟨fun h => absurd h (by simp), fun h => ?_⟩
    obtain ⟨scripts, ha, -⟩ := h
    exact absurd (hsc.symm.trans ha.scripts) (by simp)
  | ok scripts =>
    dsimp only
    refine ⟨fun h => ?_, fun h => ?_⟩
    · split at h
      · rename_i hc
        cases h
        exact ⟨scripts, ⟨hc.1, hsc, hc.2⟩, rfl⟩
      · exact absurd h (by simp)
    · obtain ⟨scripts', ha, rfl⟩ := h
      cases hsc.symm.trans ha.scripts
      rw [if_pos ⟨ha.status, ha.tip⟩]

theorem replay_append (env : Env) (s : Cache × TxsStore) (us us' : List Update) :
    replay env s (us ++ us') = (replay env s us).bind fun s' => replay env s' us' := by
  rw [replay, foldlM_append]
  rfl

theorem replay_singleton (env : Env) (s : Cache × TxsStore) (u : Update) :
    replay env s [u] = replayStep env s u := by
  show (replayStep env s u).bind (fun s' => some s') = _
  cases replayStep env s u <;> rfl

theorem replay_cons (env : Env) (s : Cache × TxsStore) (u : Update) (us : List Update) :
    replay env s (u :: us) = (replayStep env s u).bind fun s' => replay env s' us := rfl

theorem applyAll_ok (h : applyAll env us w = .ok () w') :
    replay env (w.cache, w.disk.txs) us = some (w'.cache, w'.disk.txs) ∧
      w'.disk.updates = w.disk.updates := by
  induction us generalizing w with
  | nil =>
    obtain ⟨-, rfl⟩ := pure_ok_iff.1 h
    exact ⟨rfl, rfl⟩
  | cons u us ih =>
    rw [applyAll, bind_ok_iff] at h
    obtain ⟨_, w₁, happly, hrest⟩ := h
    obtain ⟨scripts, ha, rfl⟩ := applyUpdateInner_ok happly
    obtain ⟨hreplay, hupdates⟩ := ih hrest
    refine ⟨?_, hupdates⟩
    rw [replay_cons, replayStep_eq_some.2 ⟨scripts, ha, rfl⟩]
    exact hreplay

theorem applyAll_txids (h : applyAll env us w = .ok () w') (hsub : w.disk.txids ⊆ w.cache.txids) :
    w'.disk.txids ⊆ w'.cache.txids := by
  induction us generalizing w with
  | nil =>
    obtain ⟨-, rfl⟩ := pure_ok_iff.1 h
    exact hsub
  | cons u us ih =>
    rw [applyAll, bind_ok_iff] at h
    obtain ⟨_, w₁, happly, hrest⟩ := h
    obtain ⟨scripts, ha, rfl⟩ := applyUpdateInner_ok happly
    refine ih hrest ?_
    show (if u.newTxs.txs.isEmpty then w.disk.txids else _) ⊆
      (w.cache.applied env u scripts _).txids
    rw [applied_txids]
    split
    · exact hsub.trans Finset.subset_union_left
    · exact Finset.Subset.refl _

theorem applyAll_of_replay (hf : ∀ n, env.storeFails n = false) {s : Cache × TxsStore}
    (h : replay env (w.cache, w.disk.txs) us = some s) :
    ∃ w', applyAll env us w = .ok () w' ∧ (w'.cache, w'.disk.txs) = s := by
  induction us generalizing w with
  | nil =>
    cases h
    exact ⟨w, rfl, rfl⟩
  | cons u us ih =>
    rw [replay_cons, Option.bind_eq_some_iff] at h
    obtain ⟨s₁, hstep, hrest⟩ := h
    obtain ⟨scripts, ha, rfl⟩ := replayStep_eq_some.1 hstep
    have happly := applyUpdateInner_eq (fun n _ _ => hf n) ha
    obtain ⟨w', hall, heq⟩ := ih (w := w.applied env u scripts) hrest
    exact ⟨w', bind_ok_iff.2 ⟨(), _, happly, hall⟩, heq⟩

end Swk
