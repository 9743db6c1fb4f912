import Mathlib.Data.Finset.Card
import Swk.StateExcept
import Swk.UpdateCodec
import Swk.Cache

/-!
# The wallet

The watch-only wallet of `wollet.rs` and `update.rs`: a cache, two key-value stores and the index
of the next update to persist. Every mutating function runs in `WolletM`, so what is left behind
by a failure can be seen. The stores may refuse any operation (`Env.storeFails`); those they
accept are logged in order, which is what a crash can cut short.

What a successful `applyUpdateInner` does to the cache is one pure function, `Cache.applied`.
-/

namespace Swk

open Cache List

/-! ## Status -/

/-- What `Cache::hash` feeds to the hasher. Each collection is sorted first, so it is a set. -/
structure StatusView where
  txids : Finset Txid
  paths : Finset (Σ _ : Script, Chain × ChildNumber)
  /-- The blinding public key is not hashed, for backward compatibility. -/
  scripts : Finset (Σ _ : Chain × ChildNumber, Script)
  heights : Finset (Σ _ : Txid, Option Height)
  unblinded : Finset (Σ _ : OutPoint, TxOutSecrets)
  tip : Height × BlockHash
  timestamps : Finset (Σ _ : Height, Timestamp)
  lastUnusedExternal : UInt32
  lastUnusedInternal : UInt32

def Cache.statusView (c : Cache) : StatusView where
  txids := c.txids
  paths := c.paths.toFinset
  scripts := c.scripts.toFinset.image fun e => ⟨e.1, e.2.1⟩
  heights := c.heights.toFinset
  unblinded := c.unblinded.toFinset
  tip := c.tip
  timestamps := c.timestamps.toFinset
  lastUnusedExternal := c.lastUnusedExternal
  lastUnusedInternal := c.lastUnusedInternal

/-! ## Environment and state -/

/-- What a wallet is built with, and the third-party code it calls. -/
structure Env where
  secp : Secp
  codecs : Codecs
  blockHash : BlockHeader → BlockHash
  /-- `Wollet::status`: a hash of the descriptor, the network and the cache content. -/
  statusHash : StatusView → UInt64
  descriptor : WolletDescriptor
  policyAsset : AssetId
  utxoOnly : Bool
  mergeThreshold : Option Nat
  txsStoreIsPersisted : Bool
  /-- Whether the update store is a `FakeStore`, which forgets what it is given. -/
  fakeUpdatesStore : Bool
  /-- Which store operations fail, counted over the life of the wallet. -/
  storeFails : Nat → Bool

def Env.txid (env : Env) (tx : Transaction) : Txid := env.codecs.txid tx

structure Disk where
  txs : TxsStore
  txids : Finset Txid
  updates : HashMap String Bytes

def Disk.empty : Disk := ⟨∅, ∅, ∅⟩

inductive StoreOp
  | putTx (txid : Txid) (tx : Transaction)
  | putTxids (txids : Finset Txid)
  | putUpdate (key : String) (bytes : Bytes)
  | removeUpdate (key : String)

/-- The effect of an operation on the content. -/
def StoreOp.run (op : StoreOp) (d : Disk) : Disk :=
  match op with
  | .putTx txid tx => { d with txs := d.txs.insert txid tx }
  | .putTxids txids => { d with txids := txids }
  | .putUpdate key bytes => { d with updates := d.updates.insert key bytes }
  | .removeUpdate key => { d with updates := d.updates.erase key }

/-- A wallet: its cache, the stores, and what was asked of them so far. -/
structure Wollet where
  cache : Cache
  disk : Disk
  nextUpdateIndex : Nat
  log : List StoreOp
  attempts : Nat

/-- A wallet with nothing in it, on the given stores. -/
def Wollet.fresh (disk : Disk) : Wollet := ⟨.default, disk, 0, [], 0⟩

abbrev WolletM := EStateM Error Wollet

def Wollet.status (env : Env) (w : Wollet) : UInt64 := env.statusHash w.cache.statusView

def Wollet.lastUnused (w : Wollet) : LastUnused :=
  { internal := w.cache.lastUnusedInternal, external := w.cache.lastUnusedExternal }

def attempt (env : Env) (e : Error) (op : StoreOp) : WolletM Unit := fun w =>
  if env.storeFails w.attempts then .error e { w with attempts := w.attempts + 1 }
  else .ok () { w with disk := op.run w.disk, log := w.log ++ [op], attempts := w.attempts + 1 }

/-! ## Applying an update -/

/-- `extend_all_txs`, the loop: store each transaction and remember its txid. -/
def putTxs (env : Env) : List (Txid × Transaction) → WolletM Unit
  | [] => pure ()
  | (txid, tx) :: txs => do
      attempt env .storeError (.putTx txid tx)
      modify fun w => { w with cache := { w.cache with txids := insert txid w.cache.txids } }
      putTxs env txs

def extendAllTxs (env : Env) (txs : List (Txid × Transaction)) : WolletM Unit := do
  putTxs env txs
  let w ← get
  if txs.isEmpty then pure () else attempt env .storeError (.putTxids w.cache.txids)

namespace Cache

/-- The part of `apply_update_inner` before `Cache::update`: tip, unblinded outputs, scripts. -/
def stage (env : Env) (u : Update) (scripts : List ScriptEntry) (c : Cache) : Cache :=
  { c with
    tip := if u.tip ≠ defaultBlockheader then (u.tip.height, env.blockHash u.tip) else c.tip
    unblinded := c.unblinded.extend u.newTxs.unblinds
    scripts := c.scripts.extend (scripts.map fun e => ((e.1, e.2.1), (e.2.2.1, e.2.2.2)))
    paths := c.paths.extend (scripts.map fun e => (e.2.2.1, (e.1, e.2.1))) }

/-- `Cache::update` after the transactions are stored. -/
def refresh (env : Env) (u : Update) (store : TxsStore) (c : Cache) : Cache :=
  let heights := updateHeights c.heights u.txidHeightNew u.txidHeightDelete
  let c := { c with heights := heights, sortedTxids := rebuildSortedTxids heights }
  { c with
    unspent :=
      if env.utxoOnly then c.updateUnspentUtxosOnly store u.unspent u.newTxs.txs
      else c.updateUnspent store u.txidHeightNew u.txidHeightDelete u.newTxs.txs }

/-- The largest index of a chain that some output of these transactions pays to. -/
def lastUsed (c : Cache) (chain : Chain) (txs : List Transaction) : Option UInt32 :=
  (txs.flatMap (·.output)).foldl (fun last output =>
    match c.paths.lookup output.scriptPubkey with
    | some (extInt, .normal index) =>
      if extInt = chain then
        match last with
        | none => some index
        | some l => if index > l then some index else some l
      else last
    | _ => last) none

/-- `fetch_max` with the index after the last used one, if any. -/
def fetchMaxAfter (current : UInt32) (last : Option UInt32) : UInt32 :=
  match last with
  | some index => max current (index + 1)
  | none => current

/-- The end of `apply_update_inner`: timestamps and last unused indexes. Updates before version 4
do not carry the indexes, so they are recomputed, deleted transactions included. -/
def finish (u : Update) (store : TxsStore) (c : Cache) : Cache :=
  let c := { c with timestamps := c.timestamps.extend u.timestamps }
  if 4 ≤ u.version then
    { c with
      lastUnusedExternal := max c.lastUnusedExternal u.lastUnused.external
      lastUnusedInternal := max c.lastUnusedInternal u.lastUnused.internal }
  else
    let txs := (u.txidHeightNew.map (·.1) ++ u.txidHeightDelete).filterMap
      (txAsFallback store u.newTxs.txs)
    { c with
      lastUnusedExternal := fetchMaxAfter c.lastUnusedExternal (c.lastUsed .external txs)
      lastUnusedInternal := fetchMaxAfter c.lastUnusedInternal (c.lastUsed .internal txs) }

end Cache

def applyUpdateInner (env : Env) (u : Update) : WolletM Unit := do
  let w ← get
  -- status 0 means the update was created before saving the status
  ensureElse (u.wolletStatus = 0 ∨ w.status env = u.wolletStatus)
    (.updateOnDifferentStatus (w.status env) u.wolletStatus)
  let scripts ← liftExcept
    (computeBlindingPubkeyIfMissing env.descriptor u.scriptsWithBlindingPubkey)
  -- not an old update, while giving enough space for a single block reorg
  ensureElse (u.tip = defaultBlockheader ∨ ¬ u.tip.height + 1 < w.cache.tip.1)
    (.updateHeightTooOld u.tip.height w.cache.tip.1)
  modify fun w => { w with cache := w.cache.stage env u scripts }
  extendAllTxs env u.newTxs.txs
  modify fun w => { w with cache := (w.cache.refresh env u w.disk.txs).finish u w.disk.txs }

/-! ## What applying an update does -/

/-- The conditions under which `apply_update_inner` goes ahead, with the completed scripts. -/
structure Accepts (env : Env) (u : Update) (c : Cache) (scripts : List ScriptEntry) : Prop where
  status : u.wolletStatus = 0 ∨ env.statusHash c.statusView = u.wolletStatus
  scripts : computeBlindingPubkeyIfMissing env.descriptor u.scriptsWithBlindingPubkey = .ok scripts
  tip : u.tip = defaultBlockheader ∨ ¬ u.tip.height + 1 < c.tip.1

/-- The cache after an accepted update, on the transaction store with its transactions in. -/
def Cache.applied (env : Env) (u : Update) (scripts : List ScriptEntry) (store : TxsStore)
    (c : Cache) : Cache :=
  let c := { c.stage env u scripts with txids := c.txids ∪ (u.newTxs.txs.map Prod.fst).toFinset }
  (c.refresh env u store).finish u store

/-- The wallet after its store took some transactions. -/
def Wollet.extended (w : Wollet) (txs : List (Txid × Transaction)) : Wollet :=
  { w with
    cache := { w.cache with txids := w.cache.txids ∪ (txs.map Prod.fst).toFinset }
    disk := { w.disk with txs := w.disk.txs.extend txs }
    log := w.log ++ txs.map fun e => .putTx e.1 e.2
    attempts := w.attempts + txs.length }

/-- The wallet after the list of txids was written too. -/
def Wollet.indexed (w : Wollet) (txs : List (Txid × Transaction)) : Wollet :=
  { w with
    disk := { w.disk with txids := if txs.isEmpty then w.disk.txids else w.cache.txids }
    log := w.log ++ if txs.isEmpty then [] else [.putTxids w.cache.txids]
    attempts := w.attempts + if txs.isEmpty then 0 else 1 }

def Wollet.applied (env : Env) (u : Update) (scripts : List ScriptEntry) (w : Wollet) : Wollet :=
  let txs := u.newTxs.txs
  let w' := (w.extended txs).indexed txs
  { w' with cache := w.cache.applied env u scripts (w.disk.txs.extend txs) }

/-- The wallet after its store carried out an operation. -/
def Wollet.did (w : Wollet) (op : StoreOp) : Wollet :=
  { w with disk := op.run w.disk, log := w.log ++ [op], attempts := w.attempts + 1 }

def Wollet.withIndex (w : Wollet) (n : Nat) : Wollet := { w with nextUpdateIndex := n }

variable {w w' : Wollet} {txs : List (Txid × Transaction)}

theorem attempt_ok {env : Env} {e : Error} {op : StoreOp} (h : attempt env e op w = .ok () w') :
    w' = w.did op := by
  unfold attempt at h
  split at h
  · exact absurd h (by simp)
  · injection h with _ h
    exact h.symm

theorem attempt_eq {env : Env} (hf : env.storeFails w.attempts = false) (e : Error)
    (op : StoreOp) : attempt env e op w = .ok () (w.did op) := by
  rw [attempt, hf, if_neg (by simp)]
  rfl

theorem extended_nil (w : Wollet) : w.extended [] = w := by
  obtain ⟨c, d, n, l, a⟩ := w
  simp [Wollet.extended, HashMap.extend]

theorem extended_cons (w : Wollet) (txid : Txid) (tx : Transaction)
    (txs : List (Txid × Transaction)) : w.extended ((txid, tx) :: txs) = Wollet.extended { w with
          cache := { w.cache with txids := insert txid w.cache.txids }
          disk := { w.disk with txs := w.disk.txs.insert txid tx }
          log := w.log ++ [.putTx txid tx]
          attempts := w.attempts + 1 } txs := by
  have htxids : w.cache.txids ∪ (txid :: txs.map Prod.fst).toFinset =
      insert txid w.cache.txids ∪ (txs.map Prod.fst).toFinset := by
    rw [toFinset_cons, Finset.union_insert, Finset.insert_union]
  simp only [Wollet.extended, map_cons, htxids, append_assoc, singleton_append,
    length_cons]
  rw [show w.attempts + (txs.length + 1) = w.attempts + 1 + txs.length by omega]
  rfl

theorem putTxs_ok {env : Env} (h : putTxs env txs w = .ok () w') : w' = w.extended txs := by
  induction txs generalizing w with
  | nil =>
    rw [putTxs, pure_ok_iff] at h
    rw [← h.2, extended_nil]
  | cons e txs ih =>
    obtain ⟨txid, tx⟩ := e
    obtain ⟨_, w₁, hput, h⟩ := bind_ok_iff.1 h
    rw [ih (modify_bind_ok_iff.1 h), extended_cons, attempt_ok hput]
    rfl

theorem putTxs_eq {env : Env}
    (hf : ∀ n, w.attempts ≤ n → n < w.attempts + txs.length → env.storeFails n = false) :
    putTxs env txs w = .ok () (w.extended txs) := by
  induction txs generalizing w with
  | nil => rw [extended_nil]; rfl
  | cons e txs ih =>
    obtain ⟨txid, tx⟩ := e
    rw [length_cons] at hf
    refine bind_ok_iff.2 ⟨(), _, attempt_eq (hf _ le_rfl (by omega)) _ _, ?_⟩
    rw [modify_bind, ih fun n hle hlt => hf n (Nat.le_of_succ_le hle)
      (by dsimp only [Wollet.did] at hlt; omega), extended_cons]
    rfl

theorem extendAllTxs_ok {env : Env}
    (h : extendAllTxs env txs w = .ok () w') : w' = (w.extended txs).indexed txs := by
  obtain ⟨_, w₁, hput, h⟩ := bind_ok_iff.1 h
  rw [get_bind] at h
  rw [← putTxs_ok hput]
  cases htxs : txs.isEmpty with
  | true =>
    rw [htxs] at h
    obtain ⟨-, rfl⟩ := pure_ok_iff.1 h
    simp [Wollet.indexed, htxs]
  | false =>
    rw [htxs] at h
    rw [attempt_ok h]
    simp [Wollet.indexed, htxs, Wollet.did, StoreOp.run]

theorem extendAllTxs_eq {env : Env}
    (hf : ∀ n, w.attempts ≤ n → n < ((w.extended txs).indexed txs).attempts →
      env.storeFails n = false) :
    extendAllTxs env txs w = .ok () ((w.extended txs).indexed txs) := by
  rw [extendAllTxs, bind_ok_iff]
  refine ⟨(), _, putTxs_eq fun n hle hlt => hf n hle (Nat.lt_add_right _ hlt), ?_⟩
  rw [get_bind]
  cases htxs : txs.isEmpty with
  | true =>
    refine pure_ok_iff.2 ⟨rfl, ?_⟩
    simp [Wollet.indexed, htxs]
  | false =>
    refine (attempt_eq (hf _ (Nat.le_add_right _ _) ?_) _ _).trans ?_
    · simp [Wollet.indexed, htxs]
    simp [Wollet.indexed, htxs, Wollet.did, StoreOp.run]

/-- **A successful update has the one effect it can have.** -/
theorem applyUpdateInner_ok {env : Env} {u : Update} (h : applyUpdateInner env u w = .ok () w') :
    ∃ scripts, Accepts env u w.cache scripts ∧ w' = w.applied env u scripts := by
  obtain ⟨hst, h⟩ := ensureElse_bind_ok_iff.1 (get_bind_ok_iff.1 h)
  obtain ⟨scripts, hsc, h⟩ := liftExcept_bind_ok_iff.1 h
  obtain ⟨ht, h⟩ := ensureElse_bind_ok_iff.1 h
  obtain ⟨_, w₁, hextend, h⟩ := bind_ok_iff.1 (modify_bind_ok_iff.1 h)
  refine ⟨scripts, ⟨of_decide_eq_true hst, hsc, of_decide_eq_true ht⟩, ?_⟩
  rw [← modify_ok_iff.1 h, extendAllTxs_ok hextend]
  rfl

theorem applyUpdateInner_eq {env : Env} {u : Update} {scripts : List ScriptEntry}
    (hf : ∀ n, w.attempts ≤ n → n < (w.applied env u scripts).attempts → env.storeFails n = false)
    (ha : Accepts env u w.cache scripts) :
    applyUpdateInner env u w = .ok () (w.applied env u scripts) := by
  refine get_bind_ok_iff.2 (ensureElse_bind_ok_iff.2 ⟨decide_eq_true ha.status, ?_⟩)
  refine liftExcept_bind_ok_iff.2 ⟨scripts, ha.scripts, ensureElse_bind_ok_iff.2 ⟨?_, ?_⟩⟩
  · exact decide_eq_true ha.tip
  · exact modify_bind_ok_iff.2 (bind_ok_iff.2 ⟨(), _, extendAllTxs_eq hf, rfl⟩)

/-! ## The cache after an update, field by field -/

section Applied

variable (env : Env) (u : Update) (scripts : List ScriptEntry) (store : TxsStore) (c : Cache)

def pathsOf (scripts : List ScriptEntry) : List (Script × (Chain × ChildNumber)) :=
  scripts.map fun e => (e.2.2.1, (e.1, e.2.1))

theorem fillBlindingPubkey_path {d : WolletDescriptor} {e e' : ScriptEntry}
    (h : fillBlindingPubkey d e = .ok e') : e'.1 = e.1 ∧ e'.2.1 = e.2.1 ∧ e'.2.2.1 = e.2.2.1 := by
  obtain ⟨chain, child, script, pubkey⟩ := e
  cases pubkey with
  | some key =>
    cases h
    exact ⟨rfl, rfl, rfl⟩
  | none =>
    simp only [fillBlindingPubkey] at h
    split at h
    · cases h
      exact ⟨rfl, rfl, rfl⟩
    · cases h
      exact ⟨rfl, rfl, rfl⟩
    · exact absurd h (by simp)

theorem pathsOf_computed {d : WolletDescriptor} {l l' : List ScriptEntry}
    (h : computeBlindingPubkeyIfMissing d l = .ok l') : pathsOf l' = pathsOf l := by
  unfold computeBlindingPubkeyIfMissing at h
  induction l generalizing l' with
  | nil =>
    cases h
    rfl
  | cons e l ih =>
    rw [mapM_cons, except_bind_ok_iff] at h
    obtain ⟨e', he, h⟩ := h
    rw [except_bind_ok_iff] at h
    obtain ⟨l₁, hl, h⟩ := h
    cases h
    obtain ⟨h1, h2, h3⟩ := fillBlindingPubkey_path he
    have htail := ih hl
    simp only [pathsOf, map_cons] at htail ⊢
    rw [htail, h1, h2, h3]

theorem mem_pathsOf {scripts : List ScriptEntry} {s : Script} :
    (∃ v, (s, v) ∈ pathsOf scripts) ↔ s ∈ scripts.map fun e => e.2.2.1 := by
  simp only [pathsOf, mem_map]
  refine ⟨fun h => ?_, fun h => ?_⟩
  · obtain ⟨v, e, he, heq⟩ := h
    exact ⟨e, he, congrArg Prod.fst heq⟩
  · obtain ⟨e, he, rfl⟩ := h
    exact ⟨(e.1, e.2.1), e, he, rfl⟩

/-- Only the indexes depend on the version. -/
theorem applied_eq : c.applied env u scripts store =
    { Cache.refresh env u store { c.stage env u scripts with
        txids := c.txids ∪ (u.newTxs.txs.map Prod.fst).toFinset } with
      timestamps := c.timestamps.extend u.timestamps
      lastUnusedExternal := (c.applied env u scripts store).lastUnusedExternal
      lastUnusedInternal := (c.applied env u scripts store).lastUnusedInternal } := by
  unfold applied finish
  dsimp only
  split <;> rfl

@[simp] theorem applied_txids : (c.applied env u scripts store).txids =
    c.txids ∪ (u.newTxs.txs.map Prod.fst).toFinset :=
  congrArg Cache.txids (applied_eq ..)

@[simp] theorem applied_heights : (c.applied env u scripts store).heights =
    Cache.updateHeights c.heights u.txidHeightNew u.txidHeightDelete :=
  congrArg Cache.heights (applied_eq ..)

@[simp] theorem applied_sortedTxids : (c.applied env u scripts store).sortedTxids =
    Cache.rebuildSortedTxids (Cache.updateHeights c.heights u.txidHeightNew
      u.txidHeightDelete) :=
  congrArg Cache.sortedTxids (applied_eq ..)

@[simp] theorem applied_unblinded : (c.applied env u scripts store).unblinded =
    c.unblinded.extend u.newTxs.unblinds :=
  congrArg Cache.unblinded (applied_eq ..)

@[simp] theorem applied_paths : (c.applied env u scripts store).paths =
    c.paths.extend (pathsOf scripts) :=
  congrArg Cache.paths (applied_eq ..)

@[simp] theorem applied_scripts : (c.applied env u scripts store).scripts =
    c.scripts.extend (scripts.map fun e => ((e.1, e.2.1), (e.2.2.1, e.2.2.2))) :=
  congrArg Cache.scripts (applied_eq ..)

@[simp] theorem applied_tip : (c.applied env u scripts store).tip =
    if u.tip ≠ defaultBlockheader then (u.tip.height, env.blockHash u.tip) else c.tip :=
  congrArg Cache.tip (applied_eq ..)

@[simp] theorem applied_timestamps : (c.applied env u scripts store).timestamps =
    c.timestamps.extend u.timestamps :=
  congrArg Cache.timestamps (applied_eq ..)

def Cache.lastUnusedOf (c : Cache) : Chain → UInt32
  | .external => c.lastUnusedExternal
  | .internal => c.lastUnusedInternal

theorem Cache.lastUnusedOf_congr {c c' : Cache}
    (hexternal : c.lastUnusedExternal = c'.lastUnusedExternal)
    (hinternal : c.lastUnusedInternal = c'.lastUnusedInternal) (chain : Chain) :
    c.lastUnusedOf chain = c'.lastUnusedOf chain := by
  cases chain with
  | external => exact hexternal
  | internal => exact hinternal

theorem applied_lastUnusedOf (chain : Chain) : (c.applied env u scripts store).lastUnusedOf chain =
    if 4 ≤ u.version then max (c.lastUnusedOf chain) (u.lastUnused.get chain)
    else Cache.fetchMaxAfter (c.lastUnusedOf chain) ((c.stage env u scripts).lastUsed chain
      ((u.txidHeightNew.map (·.1) ++ u.txidHeightDelete).filterMap
        (Cache.txAsFallback store u.newTxs.txs))) := by
  unfold applied finish
  dsimp only
  cases chain <;> split_ifs <;> rfl

theorem applied_unspent : (c.applied env u scripts store).unspent =
    if env.utxoOnly then c.updateUnspentUtxosOnly store u.unspent u.newTxs.txs
    else (c.stage env u scripts).updateUnspent store u.txidHeightNew u.txidHeightDelete
      u.newTxs.txs :=
  congrArg Cache.unspent (applied_eq ..)

end Applied

/-! ## A concrete environment -/

namespace Concrete

/-- An environment that computes: scripts without a descriptor, blocks hashed to their height,
and a status that counts the transactions. -/
def env (txid : Transaction → Txid) (scripts : List Script) : Env where
  secp := ⟨fun key => ⟨false, key⟩, fun _ _ => none⟩
  codecs := codecs txid
  blockHash := fun header => BitVec.ofNat 256 header.height.toNat
  statusHash := fun view => UInt64.ofNat view.txids.card
  descriptor := ⟨.spks (scripts.map fun script => ⟨none, script⟩), false⟩
  policyAsset := 1
  utxoOnly := false
  mergeThreshold := none
  txsStoreIsPersisted := false
  fakeUpdatesStore := true
  storeFails := fun _ => false

def header (height : Height) : BlockHeader := { defaultBlockheader with height := height }

end Concrete

end Swk
