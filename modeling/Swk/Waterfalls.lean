import Swk.HistoryTrace

/-!
# The descriptor endpoint

A server with a descriptor endpoint derives the scripts itself and lists their histories page by
page, at most a thousand scripts of each chain on a page. `getHistoryWaterfalls` follows
`EsploraClient::get_history_waterfalls`: it reads pages until one is not full, then asks for the
rest of the histories that did not fit.

`Gathers` says which transactions and scripts the data has then: those listed on the pages that
were read and for the addresses that have more, each script under the child number
`page * 1000 + position` (`getHistoryWaterfalls_gathered`).
-/

namespace Swk

open Cache List

/-- `WATERFALLS_MAX_ADDRESSES`: how many scripts of a chain a page lists at most. -/
def waterfallsMaxAddresses : Nat := 1000

/-- An entry of a history as this server sends it. -/
structure TxSeen extends History where
  blockTimestamp : Option Timestamp
  /-- The position of the output, counted from 1; it is set where unspent outputs are listed. -/
  v : Int32

/-- `WaterfallsResult`: a page. The histories of a chain stand under its descriptor. -/
structure WaterfallsResult where
  txsSeen : HashMap String (List (List TxSeen))
  page : UInt16
  tip : Option BlockHash
  hasMore : Option (List String)

inductive Response
  /-- The request fails, or its answer is not a page. -/
  | failed (e : Error)
  | status (code : UInt16) (body : String)
  | ok (result : WaterfallsResult)

/-- The data of a scan, with what only this server says. -/
structure WaterfallsData extends Data where
  heightTimestamp : HashMap Height Timestamp
  tip : Option BlockHash

def WaterfallsData.default : WaterfallsData := ⟨.default, ∅, none⟩

/-- The client, and the third-party code it calls. -/
structure WaterfallsClient where
  utxoOnly : Bool
  isElip151 : Bool
  /-- `bitcoin_descriptor_without_key_origin`. -/
  baseDesc : Except Error String
  /-- Parse a descriptor; `Chain::try_from` gives its chain. -/
  parseDescriptor : String → Except Error (Option Chain)
  addressOf : Script → Option String
  txidText : Txid → String
  addressPages : String → List Response

/-! ## The client -/

variable (client : WaterfallsClient) (env : Env)

def waterfallsOutpoint (txSeen : TxSeen) : Except Error OutPoint :=
  if 1 ≤ txSeen.v then .ok ⟨txSeen.txid, (txSeen.v.toInt - 1).toNat⟩
  else .error (.generic ("Waterfalls UTXO entry has invalid output index " ++ toString txSeen.v
    ++ " for txid " ++ client.txidText txSeen.txid))

def mergeWaterfallsHistory (data : WaterfallsData) (txSeen : TxSeen) : WaterfallsData :=
  if 0 < txSeen.height then
    let height := txSeen.height.toUInt32
    { data with
      heightBlockhash :=
        match txSeen.blockHash with
        | some hash => data.heightBlockhash.insert height hash
        | none => data.heightBlockhash
      heightTimestamp :=
        match txSeen.blockTimestamp with
        | some ts => data.heightTimestamp.insert height ts
        | none => data.heightTimestamp
      txidHeight := data.txidHeight.insert txSeen.txid (some height) }
  else { data with txidHeight := data.txidHeight.insert txSeen.txid none }

/-- `data.last_unused[chain] = index`. -/
def WaterfallsData.setLastUnused (data : WaterfallsData) (chain : Chain) (index : UInt32) :
    WaterfallsData :=
  { data with toData := data.toData.setLastUnused chain index }

structure WaterfallsState where
  data : WaterfallsData
  scriptsByAddress : HashMap String ScriptRow
  hasMore : List String

/-- `scripts_by_address.insert`, for a script that has an address. -/
def putAddress (byAddress : HashMap String ScriptRow)
    (row : ScriptRow) : HashMap String ScriptRow :=
  match client.addressOf row.1 with
  | some address => byAddress.insert address row
  | none => byAddress

def seenScript (client : WaterfallsClient) (c : Cache) (page : UInt16) (chain : Chain)
    (st : WaterfallsState) (entry : List TxSeen × Nat) : Except Error WaterfallsState := do
  let child := ChildNumber.ofU32
    (page.toUInt32 * UInt32.ofNat waterfallsMaxAddresses + UInt32.ofNat entry.2)
  let r ← c.getOrDerive env.secp env.descriptor chain child
  let data :=
    if r.2.2 then st.data
    else { st.data with scripts := st.data.scripts.insert r.1 (chain, child, r.2.1) }
  pure
    { st with
      data := entry.1.foldl mergeWaterfallsHistory data
      scriptsByAddress := putAddress client st.scriptsByAddress (r.1, (chain, child, r.2.1)) }

/-- The index after the last used script of a chain, as the page has it. -/
def WaterfallsData.noteUsed (data : WaterfallsData) (chain : Chain)
    (chainHistory : List (List TxSeen)) : WaterfallsData :=
  match maxUsed (chainHistory.map (·.map TxSeen.toHistory)) with
  | some last => data.setLastUnused chain (UInt32.ofNat last + 1)
  | none => data

def seenChain (client : WaterfallsClient) (c : Cache) (page : UInt16) (st : WaterfallsState)
    (entry : String × List (List TxSeen)) : Except Error WaterfallsState := do
  let chain? ← client.parseDescriptor entry.1
  let chain := chain?.getD .external
  entry.2.zipIdx.foldlM (seenScript env client c page chain)
    { st with data := st.data.noteUsed chain entry.2 }

/-- The outpoints of entries, if the client only wants unspent outputs. -/
def unspentOf (entries : List TxSeen) : Except Error (List OutPoint) :=
  if client.utxoOnly then entries.mapM (waterfallsOutpoint client) else .ok []

def seenPage (client : WaterfallsClient) (c : Cache) (st : WaterfallsState)
    (result : WaterfallsResult) : Except Error WaterfallsState := do
  let unspent ← unspentOf client result.txsSeen.values.flatten.flatten
  let st :=
    { st with
      hasMore := st.hasMore ++ result.hasMore.getD []
      data := { st.data with unspent := st.data.unspent ++ unspent } }
  let st ← result.txsSeen.toPairs.foldlM (seenChain env client c result.page) st
  pure { st with data := { st.data with tip := result.tip } }

def WaterfallsResult.total (result : WaterfallsResult) : Nat :=
  (result.txsSeen.values.map (·.length)).max?.getD 0

/-- The loop over the pages, one answer for each request; after the last one requests fail. An
answer 422 may come from a server that has a new key: once, the client asks again. -/
def waterfallsLoop (env : Env) (client : WaterfallsClient) (c : Cache) :
    List Response → Bool → WaterfallsState → Except Error WaterfallsState
  | [], _, _ => .error .client
  | .failed e :: _, _, _ => .error e
  | .status code body :: rest, retried, st =>
    if code = 422 && !retried then waterfallsLoop env client c rest true st
    else .error (.generic body)
  | .ok result :: rest, retried, st => do
      let st ← seenPage env client c st result
      if result.total < waterfallsMaxAddresses then pure st
      else waterfallsLoop env client c rest retried st

/-- `get_address_history_waterfalls_from_page`. -/
def addressHistory (address : String) : List Response → Except Error (List TxSeen)
  | [] => .error .client
  | .failed e :: _ => .error e
  | .status _ body :: _ => .error (.generic body)
  | .ok result :: rest => do
      let history := ((result.txsSeen.lookup "addresses").bind List.head?).getD []
      if (result.hasMore.getD []).contains address then
        let more ← addressHistory address rest
        pure (history ++ more)
      else pure history

def seenMore (scriptsByAddress : HashMap String ScriptRow) (data : WaterfallsData)
    (address : String) : Except Error WaterfallsData :=
  match scriptsByAddress.lookup address with
  | none =>
    .error (.generic ("Waterfalls returned has_more for unsupported script: " ++ address))
  | some row => do
      let history ← addressHistory address (client.addressPages address)
      let data := { data with scripts := data.scripts.insert row.1 row.2 }
      let unspent ← unspentOf client history
      pure (history.foldl mergeWaterfallsHistory { data with unspent := data.unspent ++ unspent })

def getHistoryWaterfalls (client : WaterfallsClient) (c : Cache)
    (responses : List Response) : Except Error WaterfallsData := do
  if client.isElip151 then throw .usingWaterfallsWithElip151
  else
    let _ ← client.baseDesc
    let st ← waterfallsLoop env client c responses false ⟨.default, ∅, []⟩
    if client.utxoOnly && !st.hasMore.isEmpty then
      throw (.generic
        "Waterfalls does not support paginated reused-address history in utxo_only mode")
    else st.hasMore.dedup.foldlM (seenMore client st.scriptsByAddress) st.data

/-! ## What the pages list -/

structure Seen where
  chain : Chain
  page : Nat
  pos : Nat
  history : List TxSeen

namespace Seen

/-- The derivation index of the script, over all pages. -/
def index (s : Seen) : Nat := waterfallsMaxAddresses * s.page + s.pos

def child (s : Seen) : ChildNumber := .ofU32 (UInt32.ofNat s.index)

/-- The script and its path, and whether it is cached. -/
def row (env : Env) (c : Cache) (s : Seen) : Option (ScriptRow × Bool) :=
  match c.getOrDerive env.secp env.descriptor s.chain s.child with
  | .ok r => some ((r.1, (s.chain, s.child, r.2.1)), r.2.2)
  | .error _ => none

end Seen

variable (client : WaterfallsClient)

def WaterfallsClient.chainOf (desc : String) : Chain :=
  match client.parseDescriptor desc with
  | .ok chain? => chain?.getD .external
  | .error _ => .external

def seenOf (page : UInt16) (entry : String × List (List TxSeen)) : List Seen :=
  entry.2.zipIdx.map fun e => ⟨client.chainOf entry.1, page.toNat, e.2, e.1⟩

def WaterfallsResult.seen (result : WaterfallsResult) : List Seen :=
  result.txsSeen.toPairs.flatMap (seenOf client result.page)

/-- The pages the loop reads: up to the first that is not full. -/
def pagesRead : List Response → List WaterfallsResult
  | [] => []
  | .failed _ :: _ => []
  | .status _ _ :: rest => pagesRead rest
  | .ok result :: rest =>
    result :: if result.total < waterfallsMaxAddresses then [] else pagesRead rest

def seenIn (responses : List Response) : List Seen :=
  (pagesRead responses).flatMap (·.seen client)

/-! ## Transactions and scripts -/

/-- The data has the transactions of some entries, and the scripts seen unless they are cached,
each under a path at which it was seen. -/
structure Gathers (env : Env) (c : Cache) (seen : List Seen) (entries : List TxSeen) (data : Data)
    (byAddress : HashMap String ScriptRow) : Prop where
  listed : ∀ t, t ∈ data.txidHeight ↔ ∃ el ∈ entries, el.txid = t
  reported : ∀ t h, data.txidHeight.lookup t = some h →
    ∃ el ∈ entries, el.txid = t ∧ el.reported = h
  scripts : ∀ s ∈ seen, ∀ row, s.row env c = some (row, false) → row.1 ∈ data.scripts
  paths : ∀ script path, data.scripts.lookup script = some path →
    ∃ s ∈ seen, ∃ cached, s.row env c = some ((script, path), cached)
  addresses : ∀ address row, byAddress.lookup address = some row →
    ∃ s ∈ seen, ∃ cached, s.row env c = some (row, cached)

section Gathers

variable {env : Env} {client : WaterfallsClient} {c : Cache} {seen : List Seen}
  {entries : List TxSeen} {data : Data} {byAddress : HashMap String ScriptRow}

theorem merge_toData (data : WaterfallsData) (txSeen : TxSeen) :
    (mergeWaterfallsHistory data txSeen).toData = data.toData.record txSeen.toHistory := by
  unfold mergeWaterfallsHistory Data.record
  by_cases hheight : txSeen.height ≤ 0
  · rw [if_pos hheight, if_neg (fun h => Int32.not_le.2 h hheight)]
  · refine (congrArg WaterfallsData.toData (if_pos (Int32.not_le.1 hheight))).trans ?_
    exact (if_neg hheight).symm

theorem foldl_merge_toData (els : List TxSeen) (data : WaterfallsData) :
    (els.foldl mergeWaterfallsHistory data).toData =
      (els.map TxSeen.toHistory).foldl Data.record data.toData := by
  induction els generalizing data with
  | nil => rfl
  | cons el els ih => rw [foldl_cons, ih, merge_toData, map_cons, foldl_cons]

theorem gathers_default (env : Env) (c : Cache) : Gathers env c [] [] .default ∅ := by
  refine ⟨fun t => ?_, fun t h hlookup => ?_, by simp, fun script path hlookup => ?_,
    fun address row hlookup => ?_⟩
  · simp [Data.default, AList.notMem_empty]
  · simp [Data.default] at hlookup
  · simp [Data.default] at hlookup
  · simp at hlookup

variable {s : Seen} {cached : Bool} {address : String}

theorem paths_insert {scripts : HashMap Script (Chain × ChildNumber × Option PublicKey)}
    {row : ScriptRow} (hs : s ∈ seen) (hrow : s.row env c = some (row, cached))
    (h : ∀ script path, scripts.lookup script = some path →
      ∃ s ∈ seen, ∃ cached, s.row env c = some ((script, path), cached)) :
    ∀ script path, (scripts.insert row.1 row.2).lookup script = some path →
      ∃ s ∈ seen, ∃ cached, s.row env c = some ((script, path), cached) := by
  intro script path hlookup
  by_cases hscript : script = row.1
  · subst hscript
    rw [AList.lookup_insert] at hlookup
    cases hlookup
    exact ⟨s, hs, cached, hrow⟩
  · rw [AList.lookup_insert_ne hscript] at hlookup
    exact h script path hlookup

theorem lookup_putAddress {row row' : ScriptRow}
    (h : (putAddress client byAddress row).lookup address = some row') :
    row' = row ∨ byAddress.lookup address = some row' := by
  unfold putAddress at h
  cases ha : client.addressOf row.1 with
  | none =>
    rw [ha] at h
    exact .inr h
  | some a =>
    rw [ha] at h
    by_cases heq : address = a
    · subst heq
      rw [AList.lookup_insert] at h
      cases h
      exact .inl rfl
    · rw [AList.lookup_insert_ne heq] at h
      exact .inr h

section Data

variable (h : Gathers env c seen entries data byAddress)

include h

theorem Gathers.record (els : List TxSeen) :
    Gathers env c seen (entries ++ els) ((els.map TxSeen.toHistory).foldl Data.record data)
      byAddress where
  listed := by
    intro t
    rw [mem_foldl_record, h.listed]
    simp only [mem_append, mem_map]
    constructor
    · rintro (⟨el, hel, ht⟩ | ⟨_, ⟨el, hel, rfl⟩, ht⟩)
      · exact ⟨el, .inl hel, ht⟩
      · exact ⟨el, .inr hel, ht⟩
    · rintro ⟨el, hel | hel, ht⟩
      · exact .inl ⟨el, hel, ht⟩
      · exact .inr ⟨_, ⟨el, hel, rfl⟩, ht⟩
  reported := by
    intro t height hlookup
    rcases lookup_foldl_record hlookup with hold | ⟨_, hnew, ht, hheight⟩
    · obtain ⟨el, hel, hrest⟩ := h.reported t height hold
      exact ⟨el, mem_append_left _ hel, hrest⟩
    · obtain ⟨el, hel, rfl⟩ := mem_map.1 hnew
      exact ⟨el, mem_append_right _ hel, ht, hheight⟩
  scripts := by
    rw [foldl_record_scripts]
    exact h.scripts
  paths := by
    rw [foldl_record_scripts]
    exact h.paths
  addresses := h.addresses

theorem Gathers.congr {data' : Data} (htxids : data'.txidHeight = data.txidHeight)
    (hscripts : data'.scripts = data.scripts) :
    Gathers env c seen entries data' byAddress where
  listed := htxids ▸ h.listed
  reported := htxids ▸ h.reported
  scripts := hscripts ▸ h.scripts
  paths := hscripts ▸ h.paths
  addresses := h.addresses

theorem Gathers.insert {row : ScriptRow} (hs : s ∈ seen) (hrow : s.row env c = some (row, cached)) :
    Gathers env c seen entries { data with scripts := data.scripts.insert row.1 row.2 }
      byAddress where
  listed := h.listed
  reported := h.reported
  scripts := by
    intro s' hs' row' hrow'
    exact (AList.mem_insert _).2 (.inr (h.scripts s' hs' row' hrow'))
  paths := paths_insert hs hrow h.paths
  addresses := h.addresses

theorem Gathers.see {row : ScriptRow} (hrow : s.row env c = some (row, cached)) :
    Gathers env c (seen ++ [s]) entries
      (if cached then data else { data with scripts := data.scripts.insert row.1 row.2 })
      (putAddress client byAddress row) := by
  have hmem : s ∈ seen ++ [s] := mem_append_right _ (mem_singleton_self s)
  have hold {p : Seen → Prop} (he : ∃ s ∈ seen, p s) : ∃ s' ∈ seen ++ [s], p s' := by
    obtain ⟨s', hs', hp⟩ := he
    exact ⟨s', mem_append_left _ hs', hp⟩
  have hpaths : ∀ script path, data.scripts.lookup script = some path →
      ∃ s' ∈ seen ++ [s], ∃ cached, s'.row env c = some ((script, path), cached) :=
    fun script path hlookup => hold (h.paths script path hlookup)
  have haddresses : ∀ address row', (putAddress client byAddress row).lookup address =
      some row' → ∃ s' ∈ seen ++ [s], ∃ cached, s'.row env c = some (row', cached) := by
    intro address row' hlookup
    rcases lookup_putAddress hlookup with rfl | hlookup
    · exact ⟨s, hmem, cached, hrow⟩
    · exact hold (h.addresses address row' hlookup)
  cases cached with
  | true =>
    refine ⟨h.listed, h.reported, fun s' hs' row' hrow' => ?_, hpaths, haddresses⟩
    rcases mem_append.1 hs' with hs' | hs'
    · exact h.scripts s' hs' row' hrow'
    · rw [mem_singleton.1 hs', hrow] at hrow'
      simp at hrow'
  | false =>
    refine ⟨h.listed, h.reported, fun s' hs' row' hrow' => ?_, paths_insert hmem hrow hpaths,
      haddresses⟩
    apply (AList.mem_insert _).2
    rcases mem_append.1 hs' with hs' | hs'
    · exact .inr (h.scripts s' hs' row' hrow')
    · rw [mem_singleton.1 hs', hrow] at hrow'
      cases hrow'
      exact .inl rfl

end Data

theorem seen_child (chain : Chain) (page : UInt16) (pos : Nat) (history : List TxSeen) :
    ChildNumber.ofU32 (page.toUInt32 * UInt32.ofNat waterfallsMaxAddresses + UInt32.ofNat pos) =
      (Seen.mk chain page.toNat pos history).child := by
  unfold Seen.child Seen.index waterfallsMaxAddresses
  congr 1
  apply UInt32.toNat_inj.1
  simp only [UInt32.toNat_add, UInt32.toNat_mul, UInt32.toNat_ofNat', UInt16.toNat_toUInt32]
  omega

/-! ## One page after the other -/

variable {page : UInt16} {st st' : WaterfallsState}

variable {chain : Chain} {entry : List TxSeen × Nat} {responses : List Response}

section Script

variable (h : seenScript env client c page chain st entry = .ok st')

include h

theorem seenScript_ok :
    ∃ row cached, (Seen.mk chain page.toNat entry.2 entry.1).row env c = some (row, cached) ∧
      st'.data.toData = (entry.1.map TxSeen.toHistory).foldl Data.record
        (if cached then st.data.toData
          else { st.data.toData with scripts := st.data.scripts.insert row.1 row.2 }) ∧
      st'.scriptsByAddress = putAddress client st.scriptsByAddress row ∧
      st'.hasMore = st.hasMore := by
  obtain ⟨r, hr, h⟩ := except_bind_ok_iff.1 h
  cases h
  rw [seen_child chain page entry.2 entry.1] at hr ⊢
  refine ⟨_, r.2.2, by rw [Seen.row, hr], ?_, rfl, rfl⟩
  rw [foldl_merge_toData]
  cases r.2.2 with
  | true => rfl
  | false => rfl

/-- The state has gathered what these scripts list. -/
def GatheredBy (env : Env) (c : Cache) (seen : List Seen) (st : WaterfallsState) : Prop :=
  Gathers env c seen (seen.flatMap (·.history)) st.data.toData st.scriptsByAddress

theorem GatheredBy.seenScript (hst : GatheredBy env c seen st) :
    GatheredBy env c (seen ++ [⟨chain, page.toNat, entry.2, entry.1⟩]) st' := by
  obtain ⟨row, cached, hrow, hdata, haddress, -⟩ := seenScript_ok h
  rw [GatheredBy, hdata, haddress, flatMap_append, flatMap_singleton]
  exact (hst.see hrow).record entry.1

theorem seenScript_frame :
    st'.data.lastUnused = st.data.lastUnused ∧ st'.hasMore = st.hasMore := by
  obtain ⟨row, cached, -, hdata, -, hmore⟩ := seenScript_ok h
  refine ⟨?_, hmore⟩
  rw [hdata, foldl_record_lastUnused]
  cases cached <;> rfl

end Script

theorem noteUsed_gathered {chainHistory : List (List TxSeen)} (hst : GatheredBy env c seen st) :
    GatheredBy env c seen { st with data := st.data.noteUsed chain chainHistory } := by
  apply Gathers.congr hst
  all_goals
    unfold WaterfallsData.noteUsed
    cases maxUsed (chainHistory.map (·.map TxSeen.toHistory)) <;> cases chain <;> rfl

theorem noteUsed_lastUnused (data : WaterfallsData) (chain chain' : Chain)
    (chainHistory : List (List TxSeen)) : (data.noteUsed chain chainHistory).lastUnused.get chain' =
      if chain' = chain then
        ((maxUsed (chainHistory.map (·.map TxSeen.toHistory))).map
          fun last => UInt32.ofNat last + 1).getD (data.lastUnused.get chain')
      else data.lastUnused.get chain' := by
  unfold WaterfallsData.noteUsed
  cases maxUsed (chainHistory.map (·.map TxSeen.toHistory)) <;> cases chain <;> cases chain' <;> rfl

theorem seenChain_ok (seen : List Seen) {entry : String × List (List TxSeen)}
    (h : seenChain env client c page st entry = .ok st') :
    (GatheredBy env c seen st → GatheredBy env c (seen ++ seenOf client page entry) st') ∧
      st'.data.lastUnused = (st.data.noteUsed (client.chainOf entry.1) entry.2).lastUnused ∧
      st'.hasMore = st.hasMore := by
  obtain ⟨chain?, hchain, h⟩ := except_bind_ok_iff.1 h
  have hof : client.chainOf entry.1 = chain?.getD .external := by
    rw [WaterfallsClient.chainOf, hchain]
  rw [hof]
  refine ⟨fun hst => ?_, ?_⟩
  · rw [seenOf, hof, map_eq_flatMap]
    exact foldlM_ok_collect h (noteUsed_gathered hst)
      fun _ _ _ _ hdone hstep => hdone.seenScript hstep
  · refine foldlM_ok_inv (motive := fun s => s.data.lastUnused =
      (st.data.noteUsed (chain?.getD .external) entry.2).lastUnused ∧ s.hasMore = st.hasMore)
      h ⟨rfl, rfl⟩ ?_
    intro s e s' hs hstep
    obtain ⟨hlast, hmore⟩ := seenScript_frame hstep
    exact ⟨hlast.trans hs.1, hmore.trans hs.2⟩

theorem seenPage_gathered (seen : List Seen) {result : WaterfallsResult}
    (h : seenPage env client c st result = .ok st') :
    (GatheredBy env c seen st → GatheredBy env c (seen ++ result.seen client) st') ∧
      st'.hasMore = st.hasMore ++ result.hasMore.getD [] := by
  obtain ⟨unspent, -, h⟩ := except_bind_ok_iff.1 h
  obtain ⟨st₁, hfold, h⟩ := except_bind_ok_iff.1 h
  cases h
  refine ⟨fun hst => ?_, ?_⟩
  · have hchains : GatheredBy env c (seen ++ result.seen client) st₁ := by
      apply foldlM_ok_collect hfold
      · exact Gathers.congr hst rfl rfl
      · intro done s e s' hdone hstep
        exact (seenChain_ok done hstep).1 hdone
    exact Gathers.congr hchains rfl rfl
  · refine foldlM_ok_inv (motive := fun s => s.hasMore = st.hasMore ++ result.hasMore.getD [])
      hfold rfl ?_
    intro s e s' hs hstep
    exact (seenChain_ok [] hstep).2.2.trans hs

/-- The addresses the pages read have more of. -/
def moreIn (responses : List Response) : List String :=
  (pagesRead responses).flatMap fun result => result.hasMore.getD []

theorem waterfallsLoop_pages {retried : Bool}
    (h : waterfallsLoop env client c responses retried st = .ok st') :
    (pagesRead responses).foldlM (seenPage env client c) st = .ok st' := by
  induction responses generalizing st retried with
  | nil => cases h
  | cons response rest ih =>
    cases response with
    | failed e => cases h
    | status code body =>
      rw [waterfallsLoop] at h
      split at h
      · exact ih h
      · cases h
    | ok result =>
      obtain ⟨st₁, hpage, h⟩ := except_bind_ok_iff.1 h
      rw [pagesRead, foldlM_cons, hpage]
      split at h
      · next hlast =>
          rw [if_pos hlast]
          exact h
      · next hfull =>
          rw [if_neg hfull]
          exact ih h

/-- **What the loop gathers.** -/
theorem waterfallsLoop_gathered (seen : List Seen) {retried : Bool}
    (h : waterfallsLoop env client c responses retried st = .ok st') :
    (GatheredBy env c seen st → GatheredBy env c (seen ++ seenIn client responses) st') ∧
      st'.hasMore = st.hasMore ++ moreIn responses := by
  have hpages := waterfallsLoop_pages h
  refine ⟨fun hst => foldlM_ok_collect hpages hst fun seen st _ st' hst hpage =>
    (seenPage_gathered seen hpage).1 hst, ?_⟩
  refine foldlM_ok_collect (motive := fun more st => st.hasMore = more) hpages rfl ?_
  intro more st result st' hmore hpage
  rw [(seenPage_gathered [] hpage).2, hmore]

/-- What the server lists for an address, from page 1 on. -/
def moreOf (client : WaterfallsClient) (address : String) : List TxSeen :=
  match addressHistory address (client.addressPages address) with
  | .ok history => history
  | .error _ => []

theorem seenMore_gathered {data data' : WaterfallsData}
    (h : seenMore client byAddress data address = .ok data')
    (hdata : Gathers env c seen entries data.toData byAddress) :
    Gathers env c seen (entries ++ moreOf client address) data'.toData byAddress ∧
      data'.lastUnused = data.lastUnused := by
  unfold seenMore at h
  cases hrow : byAddress.lookup address with
  | none => simp [hrow] at h
  | some row =>
    rw [hrow] at h
    obtain ⟨history, hhistory, h⟩ := except_bind_ok_iff.1 h
    obtain ⟨unspent, -, h⟩ := except_bind_ok_iff.1 h
    cases h
    obtain ⟨s, hs, cached, hseen⟩ := hdata.addresses address row hrow
    rw [moreOf, hhistory, foldl_merge_toData]
    constructor
    · apply Gathers.record
      exact Gathers.congr (hdata.insert hs hseen) rfl rfl
    · rw [foldl_record_lastUnused]

theorem getHistoryWaterfalls_ok {data : WaterfallsData}
    (h : getHistoryWaterfalls env client c responses = .ok data) :
    ∃ st, waterfallsLoop env client c responses false ⟨.default, ∅, []⟩ = .ok st ∧
      st.hasMore.dedup.foldlM (seenMore client st.scriptsByAddress) st.data = .ok data := by
  unfold getHistoryWaterfalls at h
  split at h
  · cases h
  · obtain ⟨-, -, h⟩ := except_bind_ok_iff.1 h
    obtain ⟨st, hst, h⟩ := except_bind_ok_iff.1 h
    split at h
    · cases h
    · exact ⟨st, hst, h⟩

/-- Every entry the server lists: on the pages, and for the addresses that have more. -/
def entriesIn (client : WaterfallsClient) (responses : List Response) : List TxSeen :=
  (seenIn client responses).flatMap (·.history) ++ (moreIn responses).dedup.flatMap (moreOf client)

/-- **What the call gathers**, and that the last step leaves the indexes alone. -/
theorem getHistoryWaterfalls_gathered {data : WaterfallsData}
    (h : getHistoryWaterfalls env client c responses = .ok data) :
    (∃ byAddress, Gathers env c (seenIn client responses) (entriesIn client responses)
      data.toData byAddress) ∧
    ∃ st, waterfallsLoop env client c responses false ⟨.default, ∅, []⟩ = .ok st ∧
      data.lastUnused = st.data.lastUnused := by
  obtain ⟨st, hst, hmore⟩ := getHistoryWaterfalls_ok h
  obtain ⟨hgathered, hadd⟩ := waterfallsLoop_gathered [] hst
  have hpages : GatheredBy env c (seenIn client responses) st := hgathered (gathers_default env c)
  rw [nil_append] at hadd
  rw [hadd] at hmore
  have hall : Gathers env c (seenIn client responses) (entriesIn client responses) data.toData
      st.scriptsByAddress ∧ data.lastUnused = st.data.lastUnused := by
    apply foldlM_ok_collect (motive := fun els d => Gathers env c (seenIn client responses) els
      (WaterfallsData.toData d) st.scriptsByAddress ∧ d.lastUnused = st.data.lastUnused) hmore
    · exact ⟨hpages, rfl⟩
    · intro els d address d' hd hstep
      obtain ⟨hgathers, hlast⟩ := seenMore_gathered hstep hd.1
      exact ⟨hgathers, hlast.trans hd.2⟩
  exact ⟨⟨st.scriptsByAddress, hall.1⟩, st, hst, hall.2⟩

end Gathers

/-! ## When the call returns -/

section Returns

variable {env : Env} {client : WaterfallsClient} {c : Cache}

structure Understands (env : Env) (client : WaterfallsClient) (c : Cache) : Prop where
  derive : ∀ chain child, ∃ r, c.getOrDerive env.secp env.descriptor chain child = .ok r
  parse : ∀ desc, ∃ chain?, client.parseDescriptor desc = .ok chain?
  baseDesc : ∃ desc, client.baseDesc = .ok desc
  notElip151 : client.isElip151 = false
  notUtxoOnly : client.utxoOnly = false

theorem Understands.seenPage (h : Understands env client c) (st : WaterfallsState)
    (result : WaterfallsResult) : ∃ st', seenPage env client c st result = .ok st' := by
  have hunspent : unspentOf client result.txsSeen.values.flatten.flatten = .ok [] := by
    rw [unspentOf, h.notUtxoOnly]
    rfl
  have hscript (page : UInt16) (chain : Chain) (st : WaterfallsState) (entry : List TxSeen × Nat) :
      ∃ st', seenScript env client c page chain st entry = .ok st' := by
    obtain ⟨r, hr⟩ := h.derive chain (.ofU32
      (page.toUInt32 * UInt32.ofNat waterfallsMaxAddresses + UInt32.ofNat entry.2))
    exact ⟨_, except_bind_ok_iff.2 ⟨r, hr, rfl⟩⟩
  have hchain (st : WaterfallsState) (entry : String × List (List TxSeen)) :
      ∃ st', seenChain env client c result.page st entry = .ok st' := by
    obtain ⟨chain?, hparse⟩ := h.parse entry.1
    obtain ⟨st', hst'⟩ := foldlM_ok_exists
      { st with data := st.data.noteUsed (chain?.getD .external) entry.2 }
      fun st e (_ : e ∈ entry.2.zipIdx) => hscript result.page (chain?.getD .external) st e
    exact ⟨st', except_bind_ok_iff.2 ⟨chain?, hparse, hst'⟩⟩
  obtain ⟨st', hst'⟩ := foldlM_ok_exists
    { st with
      hasMore := st.hasMore ++ result.hasMore.getD []
      data := { st.data with unspent := st.data.unspent ++ [] } }
    fun st e (_ : e ∈ result.txsSeen.toPairs) => hchain st e
  refine ⟨_, except_bind_ok_iff.2 ⟨[], hunspent, except_bind_ok_iff.2 ⟨st', hst', rfl⟩⟩⟩

theorem mem_pagesRead {pages : List WaterfallsResult} {result : WaterfallsResult}
    (h : result ∈ pagesRead (pages.map .ok)) : result ∈ pages := by
  induction pages with
  | nil => simp [pagesRead] at h
  | cons first pages ih =>
    rw [map_cons, pagesRead, mem_cons] at h
    rcases h with rfl | h
    · exact mem_cons_self ..
    · split at h
      · simp at h
      · exact mem_cons_of_mem _ (ih h)

/-- **The call returns** if the pages end and no history is left to ask for. -/
theorem getHistoryWaterfalls_returns (h : Understands env client c)
    (pages : List WaterfallsResult) (hend : ∃ result ∈ pages, result.total < waterfallsMaxAddresses)
    (hmore : ∀ result ∈ pages, result.hasMore = none) :
    ∃ data, getHistoryWaterfalls env client c (pages.map .ok) = .ok data := by
  have hloop (st : WaterfallsState) :
      ∃ st', waterfallsLoop env client c (pages.map .ok) false st = .ok st' := by
    induction pages generalizing st with
    | nil => simp at hend
    | cons result pages ih =>
      obtain ⟨st₁, hst₁⟩ := h.seenPage st result
      by_cases hlast : result.total < waterfallsMaxAddresses
      · exact ⟨st₁, except_bind_ok_iff.2 ⟨st₁, hst₁, by rw [if_pos hlast]; rfl⟩⟩
      · have hend' : ∃ result ∈ pages, result.total < waterfallsMaxAddresses := by
          simpa [hlast] using hend
        obtain ⟨st', hst'⟩ := ih hend' (fun r hr => hmore r (mem_cons_of_mem _ hr)) st₁
        exact ⟨st', except_bind_ok_iff.2 ⟨st₁, hst₁, by rw [if_neg hlast]; exact hst'⟩⟩
  obtain ⟨st, hst⟩ := hloop ⟨.default, ∅, []⟩
  have hnone : st.hasMore = [] := by
    rw [(waterfallsLoop_gathered [] hst).2, nil_append, moreIn, flatMap_eq_nil_iff]
    intro result hresult
    rw [hmore result (mem_pagesRead hresult)]
    rfl
  obtain ⟨desc, hdesc⟩ := h.baseDesc
  refine ⟨st.data, ?_⟩
  rw [getHistoryWaterfalls, h.notElip151]
  refine except_bind_ok_iff.2 ⟨desc, hdesc, except_bind_ok_iff.2 ⟨st, hst, ?_⟩⟩
  rw [hnone]
  simp [pure, Except.pure]

end Returns

end Swk
