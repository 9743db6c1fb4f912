import Mathlib.Data.List.Nodup
import Swk.Wollet

/-!
# Persisting updates

`UpdatesPersister` and `WolletBuilder::build`. Applied updates are written to the update store
under increasing indexes. Two devices keep the log short: an update that only moves the tip
overwrites a previous one of the same kind (`coalesce`), and past a threshold all stored updates
are merged into update 0 (`mergeUpdates`: read all, remove from last to first, write one). A
wallet is rebuilt by applying the stored updates in order.
-/

namespace Swk

/-! ## Keys -/

/-- `update_key`: the index in decimal, padded with zeros to width 12. -/
def updateKey (index : Nat) : String :=
  String.ofList (List.leftpad 12 '0' (Nat.toDigits 10 index))

theorem updateKey_injective {i j : Nat} (h : updateKey i = updateKey j) : i = j := by
  have hvalue (n : Nat) : Nat.ofDigitChars 10 (List.leftpad 12 '0' (Nat.toDigits 10 n)) 0 = n := by
    rw [List.leftpad, Nat.ofDigitChars_append, Nat.ofDigitChars_replicate_zero, Nat.mul_zero,
      Nat.ofDigitChars_ten_toDigits]
  have hlist := String.ofList_injective h
  rw [← hvalue i, hlist, hvalue j]

/-! ## Reading and writing one update -/

variable (env : Env) {w : Wollet} {u : Update} {w' : Wollet}

def getUpdate (w : Wollet) (index : Nat) : Except Error (Option Update) :=
  match if env.fakeUpdatesStore then none else w.disk.updates.lookup (updateKey index) with
  | none => .ok none
  | some bytes =>
    match Update.deserialize env.codecs bytes with
    | .ok u => .ok (some u)
    | .error e => .error (.elementsEncode e)

/-- Ask the update store for an operation. A `FakeStore` acknowledges it and does nothing. -/
def attemptUpdate (op : StoreOp) : WolletM Unit :=
  if env.fakeUpdatesStore then pure () else attempt env (.generic "store error") op

def setUpdate (index : Nat) (u : Update) : WolletM Unit :=
  attemptUpdate env (.putUpdate (updateKey index) (u.serialize env.codecs))

def removeUpdate (env : Env) (index : Nat) : WolletM Unit :=
  attemptUpdate env (.removeUpdate (updateKey index))

/-! ## Merging -/

def expectUpdate (w : Wollet) (index : Nat) : Except Error Update := do
  match ← getUpdate env w index with
  | some u => pure u
  | none => throw (.generic ("expected update " ++ toString index ++ " to exist"))

/-- Merge the `n` stored updates from index `i` on into `merged`. -/
def mergeFrom (env : Env) (w : Wollet) : Nat → Nat → Update → Except Error Update
  | 0, _, merged => .ok merged
  | n + 1, i, merged => do
      let u ← expectUpdate env w i
      mergeFrom env w n (i + 1) (merged.merge u)

/-- The merge of the first `nextIndex` stored updates. -/
def readMerged (w : Wollet) (nextIndex : Nat) : Except Error Update := do
  let merged ← expectUpdate env w 0
  mergeFrom env w (nextIndex - 1) 1 merged

/-- Delete the first `n` updates from last to first, to avoid holes on crash. -/
def removeDown (env : Env) : Nat → WolletM Unit
  | 0 => pure ()
  | n + 1 => do
      removeUpdate env n
      removeDown env n

/-- Replace the first `nextIndex` updates by their merge. -/
def mergeStored (nextIndex : Nat) : WolletM Nat := do
  let w ← get
  let merged ← liftExcept (readMerged env w nextIndex)
  removeDown env nextIndex
  setUpdate env 0 merged
  pure 1

def mergeUpdates (nextIndex : Nat) : WolletM Nat :=
  match env.mergeThreshold with
  | some threshold => if threshold < nextIndex then mergeStored env nextIndex else pure nextIndex
  | none => pure nextIndex

/-! ## Persisting -/

/-- The update that overwrites the previous one when both only move the tip: it keeps the
previous status, so reapplying works, and the timestamps of both. -/
def coalesce (w : Wollet) (u : Update) : Option Update :=
  if u.onlyTip && 0 < w.nextUpdateIndex then
    match getUpdate env w (w.nextUpdateIndex - 1) with
    | .ok (some prev) =>
      if prev.onlyTip then
        some { u with
          wolletStatus := prev.wolletStatus
          timestamps := prev.timestamps ++ u.timestamps }
      else none
    | _ => none
  else none

/-- The update as it is stored: transactions in a persisted store are not stored twice. -/
def Update.cleared (u : Update) : Update :=
  if env.txsStoreIsPersisted then { u with newTxs := { u.newTxs with txs := [] } } else u

/-- Store an update under the next index and merge if it is time to. -/
def persistNext (u : Update) : WolletM Unit := do
  let w ← get
  setUpdate env w.nextUpdateIndex (u.cleared env)
  modify fun w => { w with nextUpdateIndex := w.nextUpdateIndex + 1 }
  let next ← mergeUpdates env (w.nextUpdateIndex + 1)
  modify fun w => { w with nextUpdateIndex := next }

def persist (u : Update) : WolletM Unit := do
  let w ← get
  match coalesce env w u with
  | some u' => setUpdate env (w.nextUpdateIndex - 1) u'
  | none => persistNext env u

def applyUpdate (u : Update) : WolletM Unit := do
  applyUpdateInner env u
  persist env u

/-! ## Rebuilding -/

/-- The loop of `restore_updates`, which ends at the first index without an update. -/
def restoreLoop (env : Env) : Nat → Nat → WolletM Unit
  | 0, _ => throw (.generic "out of fuel")
  | fuel + 1, i => do
      let w ← get
      match ← liftExcept (getUpdate env w i) with
      | some u =>
        applyUpdateInner env u
        restoreLoop env fuel (i + 1)
      | none =>
        let next ← mergeUpdates env i
        modify fun w => { w with nextUpdateIndex := next }

/-- `restore_updates`. More indexes than stored updates are never reached. -/
def restoreUpdates : WolletM Unit := do
  let w ← get
  restoreLoop env (w.disk.updates.entries.length + 1) 0

/-- `WolletBuilder::build`, on the stores it is given. -/
def build (disk : Disk) : EStateM.Result Error Wollet Unit :=
  (do
    ensureElse (!env.txsStoreIsPersisted || env.mergeThreshold == some 1)
      (.generic "If txs store is persited, merge threshold must be 1")
    restoreUpdates env
    -- `add_txids_from_txs_store`
    modify fun w => { w with cache := { w.cache with txids := w.cache.txids ∪ w.disk.txids } } :
    WolletM Unit) (Wollet.fresh disk)

/-- What a new process finds in the stores: a transaction store in memory starts empty. -/
def Disk.reopened (d : Disk) : Disk :=
  if env.txsStoreIsPersisted then d else { d with txs := ∅, txids := ∅ }

/-! ## What persisting does to the update store -/

theorem coalesce_eq_some {env : Env} {u' : Update} :
    coalesce env w u = some u' ↔ u.onlyTip = true ∧ 0 < w.nextUpdateIndex ∧
      ∃ prev, getUpdate env w (w.nextUpdateIndex - 1) = .ok (some prev) ∧ prev.onlyTip = true ∧
        u' = { u with
          wolletStatus := prev.wolletStatus
          timestamps := prev.timestamps ++ u.timestamps } := by
  unfold coalesce
  refine ⟨fun h => ?_, fun h => ?_⟩
  · split at h
    · rename_i hc
      rw [Bool.and_eq_true, decide_eq_true_eq] at hc
      split at h
      · rename_i prev hprev
        split at h
        · rename_i htip
          cases h
          exact ⟨hc.1, hc.2, prev, hprev, htip, rfl⟩
        · exact absurd h (by simp)
      · exact absurd h (by simp)
    · exact absurd h (by simp)
  · obtain ⟨htip, hnext, prev, hprev, hprevTip, rfl⟩ := h
    simp [htip, hnext, hprev, hprevTip]

theorem attemptUpdate_real {env : Env} (hfake : env.fakeUpdatesStore = false)
    (hworks : env.storeFails w.attempts = false) (op : StoreOp) :
    attemptUpdate env op w = .ok () (w.did op) := by
  rw [attemptUpdate, hfake]
  exact attempt_eq hworks _ op

theorem expectUpdate_ok_iff {env : Env} {i : Nat} :
    expectUpdate env w i = .ok u ↔ getUpdate env w i = .ok (some u) := by
  rw [expectUpdate, except_bind_ok_iff]
  refine ⟨?_, fun h => ⟨_, h, rfl⟩⟩
  rintro ⟨_ | u', hget, h⟩ <;> cases h
  exact hget

theorem setUpdate_ok {env : Env} (hfake : env.fakeUpdatesStore = false) {i : Nat}
    (h : setUpdate env i u w = .ok () w') :
    w'.disk.updates = w.disk.updates.insert (updateKey i) (u.serialize env.codecs) ∧
      w'.nextUpdateIndex = w.nextUpdateIndex := by
  rw [setUpdate, attemptUpdate, hfake] at h
  rw [attempt_ok h]
  exact ⟨rfl, rfl⟩

/-! ## Persisting leaves the cache alone -/

/-- Two wallets with the same cache and transaction store. -/
structure Framed (w w' : Wollet) : Prop where
  cache : w'.cache = w.cache
  txs : w'.disk.txs = w.disk.txs
  txids : w'.disk.txids = w.disk.txids

/-- What the update store leaves alone. -/
def Wollet.frame (w : Wollet) : Cache × TxsStore × Finset Txid :=
  (w.cache, w.disk.txs, w.disk.txids)

section Frame

variable {env : Env} {op : StoreOp}

theorem attempt_preserves {τ : Type} {part : Wollet → τ}
    (hfail : ∀ w n, part { w with attempts := n } = part w)
    (hrun : ∀ w log n, part { w with disk := op.run w.disk, log := log, attempts := n } = part w)
    (e : Error) : Preserves part (attempt env e op) where
  ok h := by
    rw [attempt_ok h]
    exact hrun _ _ _
  error h := by
    unfold attempt at h
    split at h
    · cases h
      exact hfail _ _
    · cases h

theorem attemptUpdate_preserves (hrun : ∀ (w : Wollet) log n,
    Wollet.frame { w with disk := op.run w.disk, log := log, attempts := n } = w.frame) :
    Preserves Wollet.frame (attemptUpdate env op) := by
  unfold attemptUpdate
  split
  · exact .pure ()
  · exact attempt_preserves (fun _ _ => rfl) hrun _

theorem removeDown_preserves (n : Nat) : Preserves Wollet.frame (removeDown env n) := by
  induction n with
  | zero => exact .pure ()
  | succ n ih => exact (attemptUpdate_preserves fun _ _ _ => rfl).bind fun _ => ih

theorem mergeUpdates_preserves (n : Nat) : Preserves Wollet.frame (mergeUpdates env n) := by
  have hmerge : Preserves Wollet.frame (mergeStored env n) :=
    .bind .get fun _ => .bind (.liftExcept _) fun _ => (removeDown_preserves n).bind fun _ =>
      (attemptUpdate_preserves fun _ _ _ => rfl).bind fun _ => .pure 1
  unfold mergeUpdates
  split
  · split
    · exact hmerge
    · exact .pure n
  · exact .pure n

theorem persist_preserves (u : Update) : Preserves Wollet.frame (persist env u) := by
  refine .bind .get fun w => ?_
  cases coalesce env w u with
  | some u' => exact attemptUpdate_preserves fun _ _ _ => rfl
  | none =>
    refine .bind .get fun w => (attemptUpdate_preserves fun _ _ _ => rfl).bind fun _ => ?_
    refine .bind (.modify fun _ => rfl) fun _ => (mergeUpdates_preserves _).bind fun _ => ?_
    exact .modify fun _ => rfl

theorem persist_framed (h : persist env u w = .ok () w') : Framed w w' := by
  have hframe := (persist_preserves u).ok h
  simp only [Wollet.frame, Prod.mk.injEq] at hframe
  exact ⟨hframe.1, hframe.2.1, hframe.2.2⟩

end Frame

/-- A successful `apply_update` applies the update and persists it. -/
theorem applyUpdate_persist {env : Env} (h : applyUpdate env u w = .ok () w') :
    ∃ scripts, Accepts env u w.cache scripts ∧
      persist env u (w.applied env u scripts) = .ok () w' := by
  rw [applyUpdate, bind_ok_iff] at h
  obtain ⟨_, w₁, hinner, hpersist⟩ := h
  obtain ⟨scripts, ha, rfl⟩ := applyUpdateInner_ok hinner
  exact ⟨scripts, ha, hpersist⟩

/-- A successful `apply_update` changes the cache the way an accepted update does. -/
theorem applyUpdate_ok {env : Env} (h : applyUpdate env u w = .ok () w') :
    ∃ scripts, Accepts env u w.cache scripts ∧
      w'.cache = w.cache.applied env u scripts (w.disk.txs.extend u.newTxs.txs) ∧
      w'.disk.txs = w.disk.txs.extend u.newTxs.txs := by
  obtain ⟨scripts, ha, hpersist⟩ := applyUpdate_persist h
  have hframe := persist_framed hpersist
  exact ⟨scripts, ha, hframe.cache, hframe.txs⟩

end Swk
