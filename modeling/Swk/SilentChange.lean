import Swk.HistoryTrace

/-!
# Scans that report no change

`full_scan_to_index` returns no update when it found nothing new. Whether there is something new
is decided by five signs: a transaction to download, another index of unused scripts, a script to
add, a block header to download, another tip. The update it would have returned says more than
that: which transactions have left the history and which have another height than before.

`NoSign` is what the scan looks at and `Silent` what it overlooks. A dropped transaction shows no
sign of its own, and neither does one that moves to a height at which the wallet has another
transaction already.
-/

namespace Swk

open Cache List

/-! ## The server's view -/

/-- The server lists the transaction for one of the scripts, with this height. -/
def Listed (view : Script → List History) (rows : List ScriptRow) (t : Txid)
    (h : Option Height) : Prop :=
  ∃ row ∈ rows, ∃ el ∈ view row.1, el.txid = t ∧ el.reported = h

/-- A server that answers from one view of the chain: the history of each script, in which a
transaction has one height, and a tip. -/
structure Backend.Serves (env : Env) (server : Backend) (view : Script → List History)
    (tip : BlockHeader) : Prop where
  history : server.Shows view
  consistent : ∀ s s' el el', el ∈ view s → el' ∈ view s' → el.txid = el'.txid →
    el.reported = el'.reported
  tip : server.tip = .ok tip
  /-- It has the transactions it lists. -/
  transactions : ∀ ids, (∀ t ∈ ids, ∃ s, ∃ el ∈ view s, el.txid = t) →
    ∃ txs, server.getTransactions ids = .ok txs ∧ txs.map env.txid = ids
  headers : ∀ heights hashes, ∃ headers, server.getHeaders heights hashes = .ok headers ∧
    headers.map (·.height) = heights
  utxoOnly : env.utxoOnly = server.utxoOnly
  /-- Histories are asked for script by script. -/
  perScript : server.waterfalls = false

/-- The wallet is where the server is, as far as the scanned scripts go. -/
structure UpToDate (env : Env) (view : Script → List History) (tip : BlockHeader) (w : Wollet)
    (rows : List ScriptRow) : Prop where
  heights : ∀ t h, w.cache.heights.lookup t = some h ↔ Listed view rows t h
  tip : w.cache.tip = (tip.height, env.blockHash tip)
  scripts : ∀ row ∈ rows, row.1 ∈ w.cache.paths

/-- None of the signs of a change that a scan looks at. -/
structure NoSign (env : Env) (view : Script → List History) (tip : BlockHeader) (w : Wollet)
    (batches : List ScriptBatch) : Prop where
  stored : ∀ t h, Listed view (batches.flatMap (·.value)) t h → t ∈ w.cache.txids
  lastUnused : ∀ chain, IsLastUnused view (batches.flatMap (·.value)) chain (w.lastUnused.get chain)
  /-- A batch counts as cached when its last script is. -/
  cached : ∀ batch ∈ batches, batch.cached = true
  heights : ∀ t h, Listed view (batches.flatMap (·.value)) t (some h) →
    some h ∈ w.cache.heights.values
  tipHeight : some tip.height ∈ w.cache.heights.values
  tip : w.cache.tip = (tip.height, env.blockHash tip)

/-- What can still change without such a sign, and is overlooked. -/
inductive Overlooked (view : Script → List History) (w : Wollet) (rows : List ScriptRow) : Prop
  /-- A transaction of the wallet is no longer listed. -/
  | dropped (t : Txid) (hmine : t ∈ w.cache.heights) (hgone : ∀ h, ¬ Listed view rows t h)
  /-- A stored transaction is listed without a height, and the wallet has it with one or not at
  all. -/
  | unconfirmed (t : Txid) (hstored : t ∈ w.cache.txids) (hlisted : Listed view rows t none)
      (hheight : w.cache.heights.lookup t ≠ some none)
  /-- A stored transaction is listed at a height at which the wallet has another one only. -/
  | moved (t t' : Txid) (h : Height) (hstored : t ∈ w.cache.txids)
      (hlisted : Listed view rows t (some h)) (hheight : w.cache.heights.lookup t ≠ some (some h))
      (hother : w.cache.heights.lookup t' = some (some h))
  /-- A script is not among the wallet's, though the last one of its batch is. -/
  | unknown (row : ScriptRow) (hrow : row ∈ rows) (hscript : row.1 ∉ w.cache.paths)

/-- The scan gets through, nothing it looks at has changed, and something else has. -/
structure Silent (env : Env) (server : Backend) (view : Script → List History)
    (tip : BlockHeader) (w : Wollet) (index : UInt32) : Prop where
  scanned : ∃ data, getHistory env server w index = .ok data
  noSign : NoSign env view tip w (queriedBatches env server w index)
  overlooked : Overlooked view w (queriedScripts env server w index)

/-! ## The parts of a scan -/

section Parts

variable {env : Env} {server : Backend} {view : Script → List History} {tip : BlockHeader}
  {w : Wollet} {index : UInt32} {rows : List ScriptRow} {data : Data}

theorem IsLastUnused.unique {chain : Chain} {a b : UInt32}
    (ha : IsLastUnused view rows chain a) (hb : IsLastUnused view rows chain b) : a = b := by
  have hle {x y : UInt32} (hx : IsLastUnused view rows chain x)
      (hy : IsLastUnused view rows chain y) : x.toNat ≤ y.toNat := by
    rcases hx.2 with hzero | ⟨row, hrow, hchain, hused, hlast⟩
    · rw [hzero]
      exact Nat.zero_le _
    · have := hy.1 row hrow hchain hused
      omega
  exact UInt32.toNat_inj.1 (Nat.le_antisymm (hle ha hb) (hle hb ha))

theorem Describes.lastUnused_eq_iff (h : Describes view rows data) :
    w.lastUnused = data.lastUnused ↔
      ∀ chain, IsLastUnused view rows chain (w.lastUnused.get chain) := by
  constructor
  · intro heq
    rw [heq]
    exact h.lastUnused
  · intro hlast
    have hexternal := (hlast .external).unique (h.lastUnused .external)
    have hinternal := (hlast .internal).unique (h.lastUnused .internal)
    cases hw : w.lastUnused with
    | mk internal external =>
      rw [hw] at hexternal hinternal
      cases hd : data.lastUnused with
      | mk internal' external' =>
        rw [hd] at hexternal hinternal
        exact congrArg₂ LastUnused.mk hinternal hexternal

theorem NoSign.upToDate_iff {batches : List ScriptBatch} (h : NoSign env view tip w batches) :
    UpToDate env view tip w (batches.flatMap (·.value)) ↔
      ¬ Overlooked view w (batches.flatMap (·.value)) := by
  constructor
  · intro hcurrent hover
    cases hover with
    | dropped t hmine hgone =>
      obtain ⟨height, hlookup⟩ := HashMap.mem_iff.1 hmine
      exact hgone height ((hcurrent.heights t height).1 hlookup)
    | unconfirmed t _ hlisted hheight => exact hheight ((hcurrent.heights t none).2 hlisted)
    | moved t _ height _ hlisted hheight => exact hheight ((hcurrent.heights t height).2 hlisted)
    | unknown row hrow hscript => exact hscript (hcurrent.scripts row hrow)
  · intro hover
    have hheight (t : Txid) (height : Option Height)
        (hlisted : Listed view (batches.flatMap (·.value)) t height) :
        w.cache.heights.lookup t = some height := by
      by_contra hne
      have hstored := h.stored t height hlisted
      cases height with
      | none => exact hover (.unconfirmed t hstored hlisted hne)
      | some height =>
        obtain ⟨t', hother⟩ := HashMap.mem_values.1 (h.heights t height hlisted)
        exact hover (.moved t t' height hstored hlisted hne hother)
    refine ⟨fun t height => ⟨fun hlookup => ?_, hheight t height⟩, h.tip, fun row hrow => ?_⟩
    · by_cases hlisted : ∃ height', Listed view (batches.flatMap (·.value)) t height'
      · obtain ⟨height', hlisted⟩ := hlisted
        cases hlookup.symm.trans (hheight t height' hlisted)
        exact hlisted
      · exact absurd (.dropped t (HashMap.mem_iff.2 ⟨height, hlookup⟩) (not_exists.1 hlisted)) hover
    · by_contra hscript
      exact hover (.unknown row hrow hscript)

variable (hserver : server.Serves env view tip)

include hserver

theorem Describes.lookup_iff (h : Describes view rows data) (t : Txid) (height : Option Height) :
    data.txidHeight.lookup t = some height ↔ Listed view rows t height := by
  constructor
  · intro hlookup
    exact h.reported t height hlookup
  · rintro ⟨row, hrow, el, hel, ht, hheight⟩
    obtain ⟨height', hlookup⟩ := HashMap.mem_iff.1 ((h.listed t).2 ⟨row, hrow, el, hel, ht⟩)
    obtain ⟨row', -, el', hel', ht', hheight'⟩ := h.reported t height' hlookup
    have hsame := hserver.consistent _ _ _ _ hel hel' (ht.trans ht'.symm)
    rw [hlookup, ← hheight', ← hheight, hsame]

theorem downloadTxs_serves (h : Describes view rows data) :
    ∃ r, downloadTxs env server w.cache data.txidHeight.keys data.scripts = .ok r ∧
      (r.txs.isEmpty = true ↔ ∀ t h, Listed view rows t h → t ∈ w.cache.txids) := by
  obtain ⟨txs, hget, hids⟩ := hserver.transactions
    (data.txidHeight.keys.filter fun t => t ∉ w.cache.txids) (by
      intro t ht
      obtain ⟨row, -, el, hel, heq⟩ := (h.listed t).1 (AList.mem_keys.1 (mem_filter.1 ht).1)
      exact ⟨row.1, el, hel, heq⟩)
  refine ⟨_, by rw [downloadTxs, hget]; rfl, ?_⟩
  have hnil : txs = [] ↔ (data.txidHeight.keys.filter fun t => t ∉ w.cache.txids) = [] := by
    rw [← hids, map_eq_nil_iff]
  rw [List.isEmpty_iff, List.map_eq_nil_iff, hnil, List.filter_eq_nil_iff]
  simp only [decide_eq_true_eq, not_not]
  constructor
  · intro hall t height hlisted
    exact hall t (HashMap.mem_iff.2 ⟨height, (h.lookup_iff hserver t height).2 hlisted⟩)
  · intro hall t ht
    obtain ⟨height, hlookup⟩ := HashMap.mem_iff.1 ht
    exact hall t height ((h.lookup_iff hserver t height).1 hlookup)

theorem downloadHeaders_serves (heights : List Height) (hashes : HashMap Height BlockHash) :
    ∃ r, downloadHeaders server w.cache heights hashes = .ok r ∧
      (r.isEmpty = true ↔ ∀ h ∈ heights, some h ∈ w.cache.heights.values) := by
  have hmissing : (heights.filter fun h => some h ∉ w.cache.heights.values) = [] ↔
      ∀ h ∈ heights, some h ∈ w.cache.heights.values := by
    rw [filter_eq_nil_iff]
    simp only [decide_eq_true_eq, not_not]
  rw [← hmissing, downloadHeaders]
  generalize heights.filter (fun h => some h ∉ w.cache.heights.values) = missing
  cases missing with
  | nil => exact ⟨[], rfl, by simp⟩
  | cons h missing =>
    obtain ⟨headers, hget, hheights⟩ := hserver.headers (h :: missing) hashes
    refine ⟨headers.map fun h => (h.height, h.time), ?_, ?_⟩
    · simp only [isEmpty_cons, Bool.false_eq_true, if_false, hget]
      rfl
    · rw [List.isEmpty_iff, List.map_eq_nil_iff, ← @List.map_eq_nil_iff _ _ (·.height), hheights]

theorem mem_wantedHeights (h : Describes view rows data) {height : Height} :
    height ∈ (data.txidHeight.values.filterMap id ++ [tip.height]).dedup ↔
      (∃ t, Listed view rows t (some height)) ∨ height = tip.height := by
  simp only [mem_dedup, mem_append, mem_filterMap, id_eq, exists_eq_right,
    mem_singleton, HashMap.mem_values, h.lookup_iff hserver]

/-- **When a scan reports no change.** -/
theorem fullScanToIndex_none_iff (hchains : env.descriptor.ChainsDistinct) :
    fullScanToIndex env server w index = .ok none ↔
      (∃ data, getHistory env server w index = .ok data) ∧
        NoSign env view tip w (queriedBatches env server w index) := by
  have hscan : scanHistory env server w index = getHistory env server w index := by
    rw [scanHistory, if_neg (by simp [hserver.perScript])]
  rw [fullScanToIndex, if_neg (not_not.2 hserver.utxoOnly), hscan]
  cases hdata : getHistory env server w index with
  | error e => simp [bind, Except.bind]
  | ok data =>
    obtain ⟨hdescribes, hscripts⟩ := getHistory_describes hserver.history hchains hdata
    obtain ⟨newTxs, hnew, hstored⟩ := downloadTxs_serves (w := w) hserver hdescribes
    obtain ⟨timestamps, htimes, hheights⟩ := downloadHeaders_serves (w := w) hserver
      (data.txidHeight.values.filterMap id ++ [tip.height]).dedup data.heightBlockhash
    have hchanged : (!newTxs.txs.isEmpty || w.lastUnused ≠ data.lastUnused
        || !data.scripts.entries.isEmpty || !timestamps.isEmpty
        || w.cache.tip ≠ (tip.height, env.blockHash tip)) = false ↔
        NoSign env view tip w (queriedBatches env server w index) := by
      simp only [Bool.or_eq_false_iff, Bool.not_eq_false', decide_eq_false_iff_not, not_not,
        HashMap.isEmpty_entries_iff, hstored, hdescribes.lastUnused_eq_iff, hscripts, hheights,
        mem_wantedHeights hserver hdescribes]
      constructor
      · rintro ⟨⟨⟨⟨hstored, hlast⟩, hcached⟩, hwanted⟩, htip⟩
        exact ⟨hstored, hlast, hcached, fun t h hlisted => hwanted h (.inl ⟨t, hlisted⟩),
          hwanted _ (.inr rfl), htip⟩
      · intro h
        refine ⟨⟨⟨⟨h.stored, h.lastUnused⟩, h.cached⟩, ?_⟩, h.tip⟩
        rintro height (⟨t, hlisted⟩ | rfl)
        · exact h.heights t height hlisted
        · exact h.tipHeight
    simp only [bind, Except.bind, hserver.tip, hnew, htimes]
    split
    · next htrue =>
        refine ⟨fun h => absurd h (by simp [pure, Except.pure]), fun h => ?_⟩
        exact absurd htrue (Bool.eq_false_iff.1 (hchanged.2 h.2))
    · next hfalse =>
        exact ⟨fun _ => ⟨⟨data, rfl⟩, hchanged.1 (Bool.eq_false_iff.2 hfalse)⟩, fun _ => rfl⟩

end Parts

/-! ## No change reported -/

/-- **A scan that reports no change** leaves the wallet up to date exactly if no change is silent:
if some listed transaction is not stored, the index of a chain has moved, a batch of scripts is
new, a height or the tip's is not one of the wallet's, or the tip is another one, whenever a
transaction has been dropped or moved, or a scanned script is not the wallet's. -/
theorem fullScan_none_upToDate_iff (env : Env) (server : Backend) (view : Script → List History)
    (tip : BlockHeader) (w : Wollet) (index : UInt32) (hserver : server.Serves env view tip)
    (hchains : env.descriptor.ChainsDistinct) : (fullScanToIndex env server w index = .ok none →
      UpToDate env view tip w (queriedScripts env server w index)) ↔
    ¬ Silent env server view tip w index := by
  rw [fullScanToIndex_none_iff hserver hchains]
  constructor
  · intro h hsilent
    have hcurrent := h ⟨hsilent.scanned, hsilent.noSign⟩
    exact hsilent.noSign.upToDate_iff.1 hcurrent hsilent.overlooked
  · rintro hsilent ⟨hscanned, hnoSign⟩
    exact hnoSign.upToDate_iff.2 fun hover => hsilent ⟨hscanned, hnoSign, hover⟩

namespace DroppedPayment

def script : Script := [0x51]

def env : Env := Concrete.env (fun tx => BitVec.ofNat 256 tx.output.length) [script]

def payment : TxOut := ⟨.explicit 1, .explicit 1000, .null, script, none⟩

def confirmed : Transaction := ⟨[], [payment]⟩

def pending : Transaction := ⟨[], [payment, payment]⟩

def view (dropped : Bool) (s : Script) : List History :=
  if s = script then
    if dropped then [⟨1, 4, none⟩] else [⟨1, 4, none⟩, ⟨2, 0, none⟩]
  else []

def server (dropped : Bool) : Backend :=
  Concrete.server env 4 [confirmed, pending] (view dropped)

def wallet : Wollet :=
  Concrete.updated env (Concrete.scanned env (server false) (.fresh .empty)) (.fresh .empty)

theorem mem_view {dropped : Bool} {s : Script} {el : History} (h : el ∈ view dropped s) :
    el = ⟨1, 4, none⟩ ∨ el = ⟨2, 0, none⟩ ∧ dropped = false := by
  unfold view at h
  split at h
  · cases dropped with
    | true => exact .inl (by simpa using h)
    | false => simpa using h
  · simp at h

theorem getTransactions_listed {dropped : Bool} {ids : List Txid} (h : ∀ t ∈ ids, t = 1 ∨ t = 2) :
    ∃ txs, (server dropped).getTransactions ids = .ok txs := by
  induction ids with
  | nil => exact ⟨[], rfl⟩
  | cons t ids ih =>
    obtain ⟨txs, htxs⟩ := ih fun t' ht' => h t' (mem_cons_of_mem _ ht')
    simp only [server, Concrete.server, mapM_cons] at htxs ⊢
    rw [htxs]
    rcases h t (mem_cons_self ..) with rfl | rfl
    · exact ⟨confirmed :: txs, rfl⟩
    · exact ⟨pending :: txs, rfl⟩

theorem serves (dropped : Bool) :
    (server dropped).Serves env (view dropped) (Concrete.header 4) where
  history := fun _ => rfl
  consistent := by
    intro s s' el el' hel hel' htxid
    rcases mem_view hel with rfl | ⟨rfl, -⟩
    · rcases mem_view hel' with rfl | ⟨rfl, -⟩
      · rfl
      · exact absurd htxid (by decide)
    · rcases mem_view hel' with rfl | ⟨rfl, -⟩
      · exact absurd htxid (by decide)
      · rfl
  tip := rfl
  transactions := by
    intro ids hids
    obtain ⟨txs, htxs⟩ : ∃ txs, (server dropped).getTransactions ids = .ok txs := by
      apply getTransactions_listed
      intro t ht
      obtain ⟨s, el, hel, rfl⟩ := hids t ht
      rcases mem_view hel with rfl | ⟨rfl, -⟩
      · exact .inl rfl
      · exact .inr rfl
    exact ⟨txs, htxs, Concrete.server_faithful env 4 _ _ ids txs htxs⟩
  headers := by
    intro heights hashes
    refine ⟨heights.map Concrete.header, rfl, ?_⟩
    rw [map_map]
    exact map_id heights
  utxoOnly := rfl
  perScript := rfl

theorem chainsDistinct : env.descriptor.ChainsDistinct := List.nodup_singleton _

theorem queried (dropped : Bool) : queriedScripts env (server dropped) wallet 0 =
    [(script, (.external, .normal 0, none))] := by
  cases dropped <;> decide

/-- The dropped transaction stays in the wallet, and the scan reports no change. -/
theorem fullScan_none_dropped : fullScanToIndex env (server true) wallet 0 = .ok none ∧
    ¬ UpToDate env (view true) (Concrete.header 4) wallet
      (queriedScripts env (server true) wallet 0) := by
  refine ⟨by decide, fun h => ?_⟩
  have hheight : wallet.cache.heights.lookup 2 = some none := by decide
  obtain ⟨row, -, el, hel, htxid, -⟩ := (h.heights 2 none).1 hheight
  rcases mem_view hel with rfl | ⟨-, hfalse⟩
  · exact absurd htxid (by decide)
  · exact absurd hfalse (by decide)

theorem not_silent : ¬ Silent env (server false) (view false) (Concrete.header 4) wallet 0 := by
  intro h
  have hover := h.overlooked
  rw [queried] at hover
  cases hover with
  | dropped t hmine hgone =>
    have hkeys : wallet.cache.heights.keys = [1, 2] := by decide
    have ht := AList.mem_keys.1 hmine
    rw [hkeys, mem_pair] at ht
    rcases ht with rfl | rfl
    · exact hgone (some 4) ⟨_, mem_singleton_self _, ⟨1, 4, none⟩, by simp [view], rfl, rfl⟩
    · exact hgone none ⟨_, mem_singleton_self _, ⟨2, 0, none⟩, by simp [view], rfl, rfl⟩
  | unconfirmed t _ hlisted hheight =>
    obtain ⟨row, -, el, hel, rfl, hel'⟩ := hlisted
    rcases mem_view hel with rfl | ⟨rfl, -⟩
    · exact absurd hel' (by decide)
    · exact hheight (by decide)
  | moved t _ height _ hlisted hheight =>
    obtain ⟨row, -, el, hel, rfl, hel'⟩ := hlisted
    rw [← hel'] at hheight
    rcases mem_view hel with rfl | ⟨rfl, -⟩
    · exact hheight (by decide)
    · exact hheight (by decide)
  | unknown row hrow hscript =>
    rw [mem_singleton.1 hrow] at hscript
    exact hscript (by decide)

/-- While both are listed, no change is reported and there is none. -/
theorem fullScan_none_listed : fullScanToIndex env (server false) wallet 0 = .ok none ∧
    UpToDate env (view false) (Concrete.header 4) wallet
      (queriedScripts env (server false) wallet 0) := by
  have hnone : fullScanToIndex env (server false) wallet 0 = .ok none := by decide
  refine ⟨hnone, ?_⟩
  exact (fullScan_none_upToDate_iff env (server false) (view false) (Concrete.header 4) wallet 0
    (serves false) chainsDistinct).2 not_silent hnone

end DroppedPayment

end Swk
