import Swk.Funds

/-!
# Scanning

`BlockchainBackend::full_scan_to_index`, following `clients/blocking/mod.rs`: derive scripts batch
by batch until a batch without history, ask the server for the transactions not in the store yet,
unblind their outputs and report what changed. The server is data: what it answers during one
scan. Nothing ties its answers at one scan to those at another, so histories may evolve freely.

`ScanUpdate` says what an update of a scan looks like, in no particular order of its lists;
`fullScanToIndex_scanUpdate` that the scan builds one.
-/

namespace Swk

open List

/-- A position of a transaction in the history of a script; a height of -1 or 0 is
unconfirmed. -/
structure History where
  txid : Txid
  height : Int32
  blockHash : Option BlockHash

/-- Data processed after a "get history" call. -/
structure Data where
  txidHeight : HashMap Txid (Option Height)
  scripts : HashMap Script (Chain × ChildNumber × Option PublicKey)
  lastUnused : LastUnused
  heightBlockhash : HashMap Height BlockHash
  unspent : List OutPoint

def Data.default : Data := ⟨∅, ∅, .default, ∅, []⟩

structure Backend where
  tip : Except Error BlockHeader
  getTransactions : List Txid → Except Error (List Transaction)
  getHeaders : List Height → HashMap Height BlockHash → Except Error (List BlockHeader)
  getScriptsHistory : List Script → Except Error (List (List History))
  utxoOnly : Bool
  /-- Whether the server has the descriptor endpoint, and what it answers there. -/
  waterfalls : Bool
  getHistoryWaterfalls : Cache → UInt32 → Except Error Data

/-! ## History -/

/-- `data.last_unused[chain] = index`. -/
def Data.setLastUnused (d : Data) (chain : Chain) (index : UInt32) : Data :=
  match chain with
  | .external => { d with lastUnused := { d.lastUnused with external := index } }
  | .internal => { d with lastUnused := { d.lastUnused with internal := index } }

def Data.record (d : Data) (el : History) : Data :=
  if el.height ≤ 0 then { d with txidHeight := d.txidHeight.insert el.txid none }
  else
    let height := el.height.toUInt32
    { d with
      txidHeight := d.txidHeight.insert el.txid (some height)
      heightBlockhash :=
        match el.blockHash with
        | some hash => d.heightBlockhash.insert height hash
        | none => d.heightBlockhash }

/-- The last script of a batch that has a history. -/
def maxUsed (result : List (List History)) : Option Nat :=
  ((result.zipIdx.filter fun e => !e.1.isEmpty).map (·.2)).max?

/-- Past this many batches there is no child number left to derive. -/
def maxBatches : Nat := 107374184

/-- The batches of one chain. The flag says that `get_history` returned from inside the loop. -/
def historyLoop (env : Env) (server : Backend) (c : Cache) (chain : Chain) (hasWildcard : Bool)
    (index : UInt32) : Nat → UInt32 → Data → Except Error (Data × Bool)
  | 0, _, _ => .error (.generic "out of fuel")
  | fuel + 1, batchCount, data => do
      let batch ← c.getScriptBatch env.secp env.descriptor batchCount chain
      let result ← server.getScriptsHistory (batch.value.map (·.1))
      let data :=
        if batch.cached then data else { data with scripts := data.scripts.extend batch.value }
      let data :=
        match maxUsed result with
        | some last =>
          data.setLastUnused chain (1 + UInt32.ofNat last + batchCount * batchSize)
        | none => data
      let flattened := result.flatten
      if flattened.isEmpty && index ≤ 1 + batchCount * batchSize then pure (data, false)
      else
        let data := flattened.foldl Data.record data
        -- without a wildcard, one loop is enough
        if !hasWildcard then pure (data, true)
        else historyLoop env server c chain hasWildcard index fuel (batchCount + 1) data

/-- `get_history` over the chains that are left. -/
def historyOf (env : Env) (server : Backend) (c : Cache) (index : UInt32)
    (lastUnused : LastUnused) : List (Option Chain × Bool) → Data → Except Error Data
  | [], data => .ok data
  | (chain?, hasWildcard) :: rest, data => do
      let chain := chain?.getD .external
      let r ← historyLoop env server c chain hasWildcard (max index (lastUnused.get chain))
        maxBatches 0 data
      if r.2 then pure r.1 else historyOf env server c index lastUnused rest r.1

variable (env : Env)

def getHistory (server : Backend) (w : Wollet) (index : UInt32) : Except Error Data :=
  historyOf env server w.cache index w.lastUnused env.descriptor.asSingleDescriptors .default

/-! ## Downloads -/

/-- `download_txs`: the transactions not in the store, with the outputs that can be unblinded. A
script may have been derived in this very scan. -/
def downloadTxs (server : Backend) (c : Cache) (historyTxsId : List Txid)
    (scripts : HashMap Script (Chain × ChildNumber × Option PublicKey)) :
    Except Error DownloadTxResult := do
  let txs ← server.getTransactions (historyTxsId.filter fun t => t ∉ c.txids)
  pure
    { txs := txs.map fun tx => (env.txid tx, tx)
      unblinds := txs.flatMap (unblindOutputs env fun s => s ∈ c.paths ∨ s ∈ scripts) }

/-- `download_headers`: times of the heights not known yet. -/
def downloadHeaders (server : Backend) (c : Cache) (heights : List Height)
    (heightBlockhash : HashMap Height BlockHash) : Except Error (List (Height × Timestamp)) := do
  let missing := heights.filter fun h => some h ∉ c.heights.values
  if missing.isEmpty then pure []
  else
    let headers ← server.getHeaders missing heightBlockhash
    pure (headers.map fun h => (h.height, h.time))

/-! ## The scan -/

/-- The history of a scan: from the descriptor endpoint when there is one. -/
def scanHistory (server : Backend) (w : Wollet) (index : UInt32) : Except Error Data :=
  if server.waterfalls then
    match server.getHistoryWaterfalls w.cache index with
    | .error .usingWaterfallsWithElip151 => getHistory env server w index
    | r => r
  else getHistory env server w index

/-- Whether the server's history says something new of a transaction. -/
def heightChanged (c : Cache) (e : Txid × Option Height) : Bool :=
  c.heights.lookup e.1 ≠ some e.2

/-- The update of a scan that found something new. -/
def scanResult (w : Wollet) (data : Data) (tip : BlockHeader) (newTxs : DownloadTxResult)
    (timestamps : List (Height × Timestamp)) : Update where
  version := 4
  wolletStatus := w.status env
  newTxs := newTxs
  txidHeightNew := data.txidHeight.toPairs.filter (heightChanged w.cache)
  txidHeightDelete := w.cache.heights.keys.filter fun t => t ∉ data.txidHeight
  timestamps := timestamps
  scriptsWithBlindingPubkey := data.scripts.toPairs.map fun e => (e.2.1, e.2.2.1, e.1, e.2.2.2)
  tip := tip
  unspent := data.unspent
  lastUnused := data.lastUnused

def fullScanToIndex (server : Backend) (w : Wollet) (index : UInt32) :
    Except Error (Option Update) := do
  if env.utxoOnly ≠ server.utxoOnly then throw .utxoOnlyIncompatible
  else
    let data ← scanHistory env server w index
    let tip ← server.tip
    let newTxs ← downloadTxs env server w.cache data.txidHeight.keys data.scripts
    let heights := (data.txidHeight.values.filterMap id ++ [tip.height]).dedup
    let timestamps ← downloadHeaders server w.cache heights data.heightBlockhash
    let changed := !newTxs.txs.isEmpty || w.lastUnused ≠ data.lastUnused
      || !data.scripts.entries.isEmpty || !timestamps.isEmpty
      || w.cache.tip ≠ (tip.height, env.blockHash tip)
    if changed then pure (some (scanResult env w data tip newTxs timestamps)) else pure none

/-! ## What a scan returns -/

/-- The server answers a request for transactions with those transactions, one each. -/
def Backend.Faithful (server : Backend) : Prop :=
  ∀ ids txs, server.getTransactions ids = .ok txs → txs.map env.txid = ids

/-- An update a scan could build for the cache `c` when the server's history of the wallet is
`history`: it lists what is new or moved, deletes what is gone, and brings the transactions not
yet in the store with their own outputs unblinded. -/
structure ScanUpdate (env : Env) (c : Cache) (history : HashMap Txid (Option Height))
    (u : Update) : Prop where
  new : ∀ t h, (t, h) ∈ u.txidHeightNew ↔ history.lookup t = some h ∧ c.heights.lookup t ≠ some h
  delete : ∀ t, t ∈ u.txidHeightDelete ↔ t ∈ c.heights ∧ t ∉ history
  txs : ∀ t, t ∈ u.newTxs.txs.map Prod.fst ↔ t ∈ history ∧ t ∉ c.txids
  txids : ∀ e ∈ u.newTxs.txs, e.1 = env.txid e.2
  unblinds : ∀ o s, (o, s) ∈ u.newTxs.unblinds ↔
    ∃ tx, (o.txid, tx) ∈ u.newTxs.txs ∧ ∃ out, tx.output[o.vout]? = some out ∧
      (out.scriptPubkey ∈ c.paths ∨
        out.scriptPubkey ∈ u.scriptsWithBlindingPubkey.map fun e => e.2.2.1) ∧
      tryUnblind env.secp env.descriptor out = .ok s

theorem downloadTxs_ok {env : Env} {server : Backend} {c : Cache} {ids : List Txid}
    {scripts : HashMap Script (Chain × ChildNumber × Option PublicKey)} {r : DownloadTxResult}
    (h : downloadTxs env server c ids scripts = .ok r) :
    ∃ txs, server.getTransactions (ids.filter fun t => t ∉ c.txids) = .ok txs ∧
      r.txs = txs.map (fun tx => (env.txid tx, tx)) ∧
      r.unblinds = txs.flatMap (unblindOutputs env fun s => s ∈ c.paths ∨ s ∈ scripts) := by
  rw [downloadTxs, except_bind_ok_iff] at h
  obtain ⟨txs, htxs, h⟩ := h
  cases h
  exact ⟨txs, htxs, rfl, rfl⟩

theorem fullScanToIndex_ok {env : Env} {server : Backend} {w : Wollet} {index : UInt32}
    {u : Update} (h : fullScanToIndex env server w index = .ok (some u)) :
    ∃ data tip newTxs timestamps, scanHistory env server w index = .ok data ∧ server.tip = .ok tip ∧
      downloadTxs env server w.cache data.txidHeight.keys data.scripts = .ok newTxs ∧
      u = scanResult env w data tip newTxs timestamps := by
  unfold fullScanToIndex at h
  split at h
  · exact absurd h (by simp [throw, throwThe, MonadExceptOf.throw])
  · rw [except_bind_ok_iff] at h
    obtain ⟨data, hdata, h⟩ := h
    rw [except_bind_ok_iff] at h
    obtain ⟨tip, htip, h⟩ := h
    rw [except_bind_ok_iff] at h
    obtain ⟨newTxs, hnew, h⟩ := h
    rw [except_bind_ok_iff] at h
    obtain ⟨timestamps, -, h⟩ := h
    refine ⟨data, tip, newTxs, timestamps, hdata, htip, hnew, ?_⟩
    dsimp only at h
    split at h
    · cases h
      rfl
    · exact absurd h (by simp [pure, Except.pure])

/-- **A scan builds an update of that shape.** -/
theorem fullScanToIndex_scanUpdate {env : Env} {server : Backend} {w : Wollet} {index : UInt32}
    {u : Update} (hserver : server.Faithful env)
    (h : fullScanToIndex env server w index = .ok (some u)) :
    ∃ history, ScanUpdate env w.cache history u := by
  obtain ⟨data, tip, newTxs, timestamps, -, -, hnew, rfl⟩ := fullScanToIndex_ok h
  obtain ⟨txs, hget, htxs, hunblinds⟩ := downloadTxs_ok hnew
  have hids := hserver _ _ hget
  have hscript (s : Script) : s ∈ data.scripts ↔
      s ∈ (data.scripts.toPairs.map fun e => (e.2.1, e.2.2.1, e.1, e.2.2.2)).map
        fun e : ScriptEntry => e.2.2.1 := by
    simp only [map_map, mem_map, Function.comp]
    rw [HashMap.mem_iff]
    constructor
    · rintro ⟨v, hv⟩
      exact ⟨(s, v), HashMap.mem_toPairs.2 hv, rfl⟩
    · rintro ⟨⟨s', v⟩, hmem, rfl⟩
      exact ⟨v, HashMap.mem_toPairs.1 hmem⟩
  refine ⟨data.txidHeight, ?_, ?_, ?_, ?_, ?_⟩
  · intro t h
    simp only [scanResult, mem_filter, HashMap.mem_toPairs, heightChanged, decide_eq_true_eq]
  · intro t
    simp only [scanResult, mem_filter, decide_eq_true_eq, AList.mem_keys]
  · intro t
    have hmap : (scanResult env w data tip newTxs timestamps).newTxs.txs.map Prod.fst =
        data.txidHeight.keys.filter fun t => t ∉ w.cache.txids := by
      rw [← hids]
      simp only [scanResult, htxs, map_map]
      rfl
    rw [hmap, mem_filter, AList.mem_keys, decide_eq_true_eq]
  · intro e he
    simp only [scanResult, htxs, mem_map] at he
    obtain ⟨tx, -, rfl⟩ := he
    rfl
  · intro o s
    simp only [scanResult, htxs, hunblinds, mem_flatMap, mem_unblindOutputs, mem_map,
      Prod.mk.injEq, decide_eq_true_eq]
    constructor
    · rintro ⟨tx, htx, htxid, out, hout, hmine, hs⟩
      refine ⟨tx, ⟨tx, htx, htxid.symm, rfl⟩, out, hout, ?_, hs⟩
      exact hmine.imp_right fun hm => by simpa using (hscript _).1 hm
    · rintro ⟨tx, ⟨tx', htx', htxid, rfl⟩, out, hout, hmine, hs⟩
      refine ⟨tx', htx', htxid.symm, out, hout, ?_, hs⟩
      exact hmine.imp_right fun hm => (hscript _).2 (by simpa using hm)

/-! ## A concrete server -/

namespace Concrete

variable (env : Env) (u : Update)

def server (height : Height) (txs : List Transaction)
    (history : Script → List History) : Backend where
  tip := .ok (header height)
  getTransactions := fun ids => ids.mapM fun t =>
    match txs.find? fun tx => env.txid tx = t with
    | some tx => .ok tx
    | none => .error .client
  getHeaders := fun heights _ => .ok (heights.map header)
  getScriptsHistory := fun scripts => .ok (scripts.map history)
  utxoOnly := env.utxoOnly
  waterfalls := false
  getHistoryWaterfalls := fun _ _ => .error .client

def scanned (server : Backend) (w : Wollet) : Update :=
  match fullScanToIndex env server w 0 with
  | .ok (some u) => u
  | _ => sampleUpdate

def finds (server : Backend) (w : Wollet) : Bool :=
  match fullScanToIndex env server w 0 with
  | .ok (some _) => true
  | _ => false

theorem fullScanToIndex_scanned {env : Env} {server : Backend} {w : Wollet}
    (h : finds env server w = true) :
    fullScanToIndex env server w 0 = .ok (some (scanned env server w)) := by
  unfold finds at h
  unfold scanned
  split at h
  · rename_i hscan
    rw [hscan]
  · exact absurd h (by simp)

def updated (w : Wollet) : Wollet :=
  match applyUpdate env u w with
  | .ok _ w' => w'
  | .error _ w' => w'

def succeeds (w : Wollet) : Bool :=
  match applyUpdate env u w with
  | .ok _ _ => true
  | .error _ _ => false

theorem applyUpdate_updated {env : Env} {u : Update} {w : Wollet} (h : succeeds env u w = true) :
    applyUpdate env u w = .ok () (updated env u w) := by
  unfold succeeds updated at *
  cases happly : applyUpdate env u w with
  | ok r w' => rfl
  | error e w' =>
    rw [happly] at h
    exact absurd h (by simp)

def updatedInner (w : Wollet) : Wollet :=
  match applyUpdateInner env u w with
  | .ok _ w' => w'
  | .error _ w' => w'

theorem server_faithful (height : Height) (txs : List Transaction)
    (history : Script → List History) : (server env height txs history).Faithful env := by
  intro ids
  induction ids with
  | nil =>
    intro r h
    cases h
    rfl
  | cons t ids ih =>
    intro r h
    simp only [server, mapM_cons] at h ih
    rw [except_bind_ok_iff] at h
    obtain ⟨tx, htx, h⟩ := h
    rw [except_bind_ok_iff] at h
    obtain ⟨rest, hrest, h⟩ := h
    cases h
    have hfound : env.txid tx = t := by
      split at htx
      · cases htx
        rename_i hfind
        simpa using find?_some hfind
      · exact absurd htx (by simp)
    rw [map_cons, ih rest hrest, hfound]

end Concrete

end Swk
