import Swk.Scan

/-!
# What a scan asks

`get_history` asks the server about the scripts of a chain, a batch of twenty at a time. This file
follows it batch by batch: `historyTrace` is the loop with a record of the batches it asks about,
and `Describes` says what the collected data has to do with what the server lists for them. One
batch keeps that relation (`Describes.process`), so a chain does, and so do all chains:
`getHistory_describes`.
-/

namespace Swk

open Cache List

/-! ## The record -/

abbrev ScriptRow := Script × (Chain × ChildNumber × Option PublicKey)

def ScriptRow.index (row : ScriptRow) : Nat := row.2.2.1.toU32.toNat

/-- What a batch adds to the data before its histories are recorded: its scripts, unless they
count as cached, and the index after its last used script. -/
def Data.visit (d : Data) (chain : Chain) (batchCount : UInt32) (batch : ScriptBatch)
    (result : List (List History)) : Data :=
  let data := if batch.cached then d else { d with scripts := d.scripts.extend batch.value }
  match maxUsed result with
  | some last => data.setLastUnused chain (1 + UInt32.ofNat last + batchCount * batchSize)
  | none => data

/-- `historyLoop` with a record of the batches the server is asked about, in order. -/
def historyTrace (env : Env) (server : Backend) (c : Cache) (chain : Chain) (hasWildcard : Bool)
    (index : UInt32) : Nat → UInt32 → Data → List ScriptBatch × Except Error (Data × Bool)
  | 0, _, _ => ([], .error (.generic "out of fuel"))
  | fuel + 1, batchCount, data =>
    match c.getScriptBatch env.secp env.descriptor batchCount chain with
    | .error e => ([], .error e)
    | .ok batch =>
      match server.getScriptsHistory (batch.value.map (·.1)) with
      | .error e => ([batch], .error e)
      | .ok result =>
        let data := data.visit chain batchCount batch result
        if result.flatten.isEmpty && index ≤ 1 + batchCount * batchSize then
          ([batch], .ok (data, false))
        else
          let data := result.flatten.foldl Data.record data
          if !hasWildcard then ([batch], .ok (data, true))
          else
            let r := historyTrace env server c chain hasWildcard index fuel (batchCount + 1) data
            (batch :: r.1, r.2)

variable (env : Env) (server : Backend) (c : Cache)

theorem historyTrace_snd (chain : Chain) (hasWildcard : Bool) (index : UInt32) (fuel : Nat)
    (batchCount : UInt32) (data : Data) :
    (historyTrace env server c chain hasWildcard index fuel batchCount data).2 =
      historyLoop env server c chain hasWildcard index fuel batchCount data := by
  induction fuel generalizing batchCount data with
  | zero => rfl
  | succ fuel ih =>
    rw [historyTrace, historyLoop]
    cases c.getScriptBatch env.secp env.descriptor batchCount chain with
    | error e => rfl
    | ok batch =>
      cases hresult : server.getScriptsHistory (batch.value.map (·.1)) with
      | error e => simp [hresult, bind, Except.bind]
      | ok result =>
        simp only [hresult, bind, Except.bind, ← ih, Data.visit]
        split
        · rfl
        · split
          · rfl
          · rfl

/-- `historyOf` with the record. -/
def historyTraceOf (env : Env) (server : Backend) (c : Cache) (index : UInt32)
    (lastUnused : LastUnused) :
    List (Option Chain × Bool) → Data → List ScriptBatch × Except Error Data
  | [], data => ([], .ok data)
  | (chain?, hasWildcard) :: rest, data =>
    let chain := chain?.getD .external
    let r := historyTrace env server c chain hasWildcard (max index (lastUnused.get chain))
      maxBatches 0 data
    match r.2 with
    | .error e => (r.1, .error e)
    | .ok (data, returned) =>
      if returned then (r.1, .ok data)
      else
        let rs := historyTraceOf env server c index lastUnused rest data
        (r.1 ++ rs.1, rs.2)

theorem historyTraceOf_snd (index : UInt32) (lastUnused : LastUnused)
    (chains : List (Option Chain × Bool)) (data : Data) :
    (historyTraceOf env server c index lastUnused chains data).2 =
      historyOf env server c index lastUnused chains data := by
  induction chains generalizing data with
  | nil => rfl
  | cons entry chains ih =>
    obtain ⟨chain?, hasWildcard⟩ := entry
    simp only [historyTraceOf, historyOf, ← historyTrace_snd, bind, Except.bind]
    cases (historyTrace env server c (chain?.getD .external) hasWildcard
      (max index (lastUnused.get (chain?.getD .external))) maxBatches 0 data).2 with
    | error e => rfl
    | ok r =>
      obtain ⟨data', returned⟩ := r
      cases returned with
      | true => rfl
      | false => exact ih data'

/-- The batches `get_history` asks the server about. -/
def queriedBatches (w : Wollet) (index : UInt32) : List ScriptBatch :=
  (historyTraceOf env server w.cache index w.lastUnused env.descriptor.asSingleDescriptors
    .default).1

def queriedScripts (w : Wollet) (index : UInt32) : List ScriptRow :=
  (queriedBatches env server w index).flatMap (·.value)

/-! ## Batches -/

/-- The script at an index of a chain, cached or derived. -/
def rowAt (chain : Chain) (i : Nat) : Option ScriptRow :=
  if i < 2 ^ 31 then
    match c.getOrDerive env.secp env.descriptor chain (.normal (UInt32.ofNat i)) with
    | .ok r => some (r.1, (chain, .normal (UInt32.ofNat i), r.2.1))
    | .error _ => none
  else none

section Batches

variable {env : Env} {c : Cache} {chain : Chain}

variable {j : UInt32} {js : List UInt32} {batch : ScriptBatch} {b : UInt32}

theorem rowAt_eq_some {row : ScriptRow} :
    rowAt env c chain j.toNat = some row ↔ ∃ r, fromNormalIdx j = .ok (.normal j) ∧
      c.getOrDerive env.secp env.descriptor chain (.normal j) = .ok r ∧
      row = (r.1, (chain, .normal j, r.2.1)) := by
  have hlt : j.toNat < 2 ^ 31 ↔ j < 0x80000000 := by
    rw [UInt32.lt_iff_toNat_lt]
    rfl
  unfold rowAt fromNormalIdx
  rw [UInt32.ofNat_toNat]
  by_cases hj : j < 0x80000000
  · rw [if_pos (hlt.2 hj), if_pos hj]
    cases c.getOrDerive env.secp env.descriptor chain (.normal j) with
    | error e => simp
    | ok r => simp [eq_comm]
  · rw [if_neg (mt hlt.1 hj), if_neg hj]
    simp

theorem rowAt_path {i : Nat} {row : ScriptRow} (h : rowAt env c chain i = some row) :
    row.2.1 = chain ∧ row.index = i ∧ i < 2 ^ 31 := by
  unfold rowAt at h
  split at h
  · next hi =>
      split at h
      · cases h
        refine ⟨rfl, ?_, hi⟩
        rw [ScriptRow.index, ChildNumber.toU32, UInt32.toNat_ofNat']
        exact Nat.mod_eq_of_lt (by omega)
      · cases h
  · cases h

theorem deriveBatch_ok {acc : ScriptBatch}
    (h : deriveBatch env.secp env.descriptor c chain js acc = .ok batch) :
    ∃ rows, batch.value = acc.value ++ rows ∧
      List.Forall₂ (fun j row => rowAt env c chain j.toNat = some row) js rows ∧
      (acc.cached = true → batch.cached = false → rows ≠ []) := by
  induction js generalizing acc with
  | nil =>
    cases h
    exact ⟨[], (append_nil _).symm, .nil, fun htrue hfalse => by simp_all⟩
  | cons j js ih =>
    obtain ⟨child, hchild, h⟩ := except_bind_ok_iff.1 h
    obtain ⟨r, hr, h⟩ := except_bind_ok_iff.1 h
    obtain ⟨rows, hvalue, hrows, -⟩ := ih h
    have hnormal : child = .normal j := by
      unfold fromNormalIdx at hchild
      split at hchild <;> cases hchild
      rfl
    subst hnormal
    refine ⟨(r.1, (chain, .normal j, r.2.1)) :: rows, ?_, .cons ?_ hrows, by simp⟩
    · rw [hvalue, append_assoc, singleton_append]
    · exact rowAt_eq_some.2 ⟨r, hchild, hr, rfl⟩

theorem deriveBatch_exists (acc : ScriptBatch)
    (h : ∀ j ∈ js, (rowAt env c chain j.toNat).isSome = true) :
    ∃ batch, deriveBatch env.secp env.descriptor c chain js acc = .ok batch := by
  induction js generalizing acc with
  | nil => exact ⟨acc, rfl⟩
  | cons j js ih =>
    obtain ⟨row, hrow⟩ := Option.isSome_iff_exists.1 (h j (mem_cons_self ..))
    obtain ⟨r, hchild, hr, -⟩ := rowAt_eq_some.1 hrow
    simp only [deriveBatch, hchild, hr, bind, Except.bind]
    exact ih _ fun j' hj' => h j' (mem_cons_of_mem _ hj')

theorem deriveBatch_error {rest : List UInt32} (acc : ScriptBatch)
    (h : ∀ j ∈ js, (rowAt env c chain j.toNat).isSome = true) (hj : ¬ j < 0x80000000) :
    deriveBatch env.secp env.descriptor c chain (js ++ j :: rest) acc =
      .error .bitcoinBip32Error := by
  induction js generalizing acc with
  | nil => simp [deriveBatch, fromNormalIdx, hj, bind, Except.bind]
  | cons i js ih =>
    obtain ⟨row, hrow⟩ := Option.isSome_iff_exists.1 (h i (mem_cons_self ..))
    obtain ⟨r, hchild, hr, -⟩ := rowAt_eq_some.1 hrow
    simp only [cons_append, deriveBatch, hchild, hr, bind, Except.bind]
    exact ih _ fun j' hj' => h j' (mem_cons_of_mem _ hj')

theorem u32Range_getElem? {start stop : UInt32} {p : Nat}
    (h : (u32Range start stop)[p]? = some j) : j.toNat = start.toNat + p := by
  rw [u32Range, getElem?_map, Option.map_eq_some_iff] at h
  obtain ⟨i, hi, rfl⟩ := h
  obtain ⟨hlt, rfl⟩ := List.getElem?_eq_some_iff.1 hi
  have hstop := stop.toNat_lt
  rw [length_range] at hlt
  rw [getElem_range, UInt32.toNat_add, UInt32.toNat_ofNat']
  omega

theorem u32Range_length (start stop : UInt32) :
    (u32Range start stop).length = stop.toNat - start.toNat := by
  rw [u32Range, length_map, length_range]

def Consecutive (env : Env) (c : Cache) (chain : Chain) (base : Nat) (rows : List ScriptRow) :
    Prop :=
  ∀ p row, rows[p]? = some row → rowAt env c chain (base + p) = some row

theorem deriveBatch_consecutive {start stop : UInt32}
    (h : deriveBatch env.secp env.descriptor c chain (u32Range start stop) ⟨true, []⟩ = .ok batch) :
    Consecutive env c chain start.toNat batch.value ∧
      batch.value.length = stop.toNat - start.toNat ∧
      (batch.cached = false → batch.value ≠ []) := by
  obtain ⟨rows, hvalue, hrows, hcached⟩ := deriveBatch_ok h
  rw [nil_append] at hvalue
  rw [hvalue]
  refine ⟨fun p row hp => ?_, ?_, hcached rfl⟩
  · have hlt : p < rows.length := (List.getElem?_eq_some_iff.1 hp).1
    have hlt' : p < (u32Range start stop).length := hrows.length_eq ▸ hlt
    have hrow := hrows.get hlt' hlt
    have hj := u32Range_getElem? (getElem?_eq_getElem hlt')
    rw [getElem?_eq_getElem hlt] at hp
    cases hp
    rw [← hj]
    exact hrow
  · rw [← hrows.length_eq, u32Range_length]

/-- The first batch that is not full: the child numbers end inside it. -/
def brokenBatch : Nat := 107374182

theorem toNat_mul_batchSize (hb : b.toNat ≤ brokenBatch) :
    (b * batchSize).toNat = 20 * b.toNat := by
  have hb' : b.toNat ≤ 107374182 := hb
  rw [UInt32.toNat_mul, show batchSize.toNat = 20 from rfl]
  omega

theorem toNat_batch_end (hb : b.toNat ≤ brokenBatch) :
    (b * batchSize + batchSize).toNat = 20 * b.toNat + 20 := by
  have hb' : b.toNat ≤ 107374182 := hb
  rw [UInt32.toNat_add, toNat_mul_batchSize hb, show batchSize.toNat = 20 from rfl]
  omega

theorem getScriptBatch_descriptor (hdesc : env.descriptor.spkCount = none)
    (hb : b.toNat ≤ brokenBatch)
    (h : c.getScriptBatch env.secp env.descriptor b chain = .ok batch) :
    Consecutive env c chain (20 * b.toNat) batch.value ∧ batch.value.length = 20 ∧
      (batch.cached = false → batch.value ≠ []) := by
  rw [getScriptBatch, hdesc] at h
  obtain ⟨hrows, hlength, hcached⟩ := deriveBatch_consecutive h
  rw [toNat_mul_batchSize hb] at hrows hlength
  rw [toNat_batch_end hb] at hlength
  exact ⟨hrows, by omega, hcached⟩

theorem getScriptBatch_consecutive
    (hspks : env.descriptor.spkCount ≠ none → b = 0 ∧ chain = .external)
    (hb : b.toNat ≤ brokenBatch)
    (h : c.getScriptBatch env.secp env.descriptor b chain = .ok batch) :
    Consecutive env c chain (20 * b.toNat) batch.value ∧
      (batch.cached = false → batch.value ≠ []) := by
  cases hcount : env.descriptor.spkCount with
  | none => exact (getScriptBatch_descriptor hcount hb h).imp_right And.right
  | some count =>
    obtain ⟨rfl, rfl⟩ := hspks (by simp [hcount])
    rw [getScriptBatch, hcount] at h
    exact (deriveBatch_consecutive h).imp_right And.right

/-- Every child number of both chains can be derived. -/
def Derivable (env : Env) (c : Cache) : Prop :=
  ∀ chain i, i < 2 ^ 31 → (rowAt env c chain i).isSome = true

theorem getScriptBatch_exists (chain : Chain) (hdesc : env.descriptor.spkCount = none)
    (hderive : Derivable env c) (hb : b.toNat < brokenBatch) :
    ∃ batch, c.getScriptBatch env.secp env.descriptor b chain = .ok batch := by
  rw [getScriptBatch, hdesc]
  apply deriveBatch_exists
  intro j hj
  obtain ⟨p, hp⟩ := getElem?_of_mem hj
  have hlt := (List.getElem?_eq_some_iff.1 hp).1
  have hb' : b.toNat < 107374182 := hb
  rw [u32Range_length, toNat_batch_end hb.le, toNat_mul_batchSize hb.le] at hlt
  apply hderive
  rw [u32Range_getElem? hp, toNat_mul_batchSize hb.le]
  omega

theorem getScriptBatch_broken (hdesc : env.descriptor.spkCount = none) (hderive : Derivable env c)
    (hb : b.toNat = brokenBatch) :
    c.getScriptBatch env.secp env.descriptor b chain = .error .bitcoinBip32Error := by
  have hb' : b = 107374182 := UInt32.toNat_inj.1 hb
  subst hb'
  have hsplit : u32Range (107374182 * batchSize) (107374182 * batchSize + batchSize) =
      (range 8).map (fun i => 2147483640 + UInt32.ofNat i) ++
        0x80000000 :: (range 11).map (fun i => 2147483649 + UInt32.ofNat i) := by
    decide
  rw [getScriptBatch, hdesc]
  dsimp only
  rw [hsplit]
  apply deriveBatch_error
  · intro j hj
    obtain ⟨i, hi, rfl⟩ := mem_map.1 hj
    apply hderive
    rw [mem_range] at hi
    rw [UInt32.toNat_add, UInt32.toNat_ofNat',
      show (2147483640 : UInt32).toNat = 2147483640 from rfl]
    omega
  · decide

end Batches

/-! ## What the data says -/

/-- The height a server reports; 0 or below means unconfirmed. -/
def History.reported (el : History) : Option Height :=
  if el.height ≤ 0 then none else some el.height.toUInt32

/-- The index of a chain comes after the last of these scripts that has a history. -/
def IsLastUnused (view : Script → List History) (rows : List ScriptRow) (chain : Chain)
    (last : UInt32) : Prop :=
  (∀ row ∈ rows, row.2.1 = chain → view row.1 ≠ [] → row.index < last.toNat) ∧ (last = 0 ∨
      ∃ row ∈ rows, row.2.1 = chain ∧ view row.1 ≠ [] ∧ last.toNat = row.index + 1)

/-- What the data of a scan has to do with the scripts the server was asked about. -/
structure Describes (view : Script → List History) (rows : List ScriptRow) (data : Data) :
    Prop where
  listed : ∀ t, t ∈ data.txidHeight ↔ ∃ row ∈ rows, ∃ el ∈ view row.1, el.txid = t
  reported : ∀ t h, data.txidHeight.lookup t = some h →
    ∃ row ∈ rows, ∃ el ∈ view row.1, el.txid = t ∧ el.reported = h
  lastUnused : ∀ chain, IsLastUnused view rows chain (data.lastUnused.get chain)

theorem describes_default (view : Script → List History) : Describes view [] .default := by
  refine ⟨fun t => ?_, fun t h hlookup => ?_, fun chain => ⟨by simp, .inl ?_⟩⟩
  · simp [Data.default, AList.notMem_empty]
  · simp [Data.default] at hlookup
  · cases chain <;> rfl

section Data

variable {view : Script → List History} {d : Data} {rows : List ScriptRow}

theorem record_txidHeight (d : Data) (el : History) :
    (d.record el).txidHeight = d.txidHeight.insert el.txid el.reported := by
  unfold Data.record History.reported
  split
  · rfl
  · rfl

@[simp] theorem record_lastUnused (d : Data) (el : History) :
    (d.record el).lastUnused = d.lastUnused := by
  unfold Data.record
  split
  · rfl
  · rfl

@[simp] theorem record_scripts (d : Data) (el : History) : (d.record el).scripts = d.scripts := by
  unfold Data.record
  split
  · rfl
  · rfl

@[simp] theorem foldl_record_lastUnused (d : Data) (els : List History) :
    (els.foldl Data.record d).lastUnused = d.lastUnused := by
  induction els generalizing d with
  | nil => rfl
  | cons el els ih => rw [foldl_cons, ih, record_lastUnused]

@[simp] theorem foldl_record_scripts (d : Data) (els : List History) :
    (els.foldl Data.record d).scripts = d.scripts := by
  induction els generalizing d with
  | nil => rfl
  | cons el els ih => rw [foldl_cons, ih, record_scripts]

variable {els : List History}

variable {t : Txid} {result : List (List History)} {p : Nat}

theorem mem_foldl_record : t ∈ (els.foldl Data.record d).txidHeight ↔
      t ∈ d.txidHeight ∨ ∃ el ∈ els, el.txid = t := by
  induction els generalizing d with
  | nil => simp
  | cons el els ih =>
    rw [foldl_cons, ih, record_txidHeight, AList.mem_insert, eq_comm]
    simp only [mem_cons, exists_eq_or_imp, or_assoc, or_left_comm]

theorem lookup_foldl_record {h : Option Height}
    (hlookup : (els.foldl Data.record d).txidHeight.lookup t = some h) :
    d.txidHeight.lookup t = some h ∨ ∃ el ∈ els, el.txid = t ∧ el.reported = h := by
  induction els generalizing d with
  | nil => exact .inl hlookup
  | cons el els ih =>
    rcases ih hlookup with hold | ⟨el', hel', heq⟩
    · rw [record_txidHeight] at hold
      by_cases ht : t = el.txid
      · rw [ht, AList.lookup_insert] at hold
        cases hold
        exact .inr ⟨el, mem_cons_self .., ht.symm, rfl⟩
      · rw [AList.lookup_insert_ne ht] at hold
        exact .inl hold
    · exact .inr ⟨el', mem_cons_of_mem _ hel', heq⟩

/-- The histories of a batch, one list per script. -/
def Cache.ScriptBatch.histories (view : Script → List History) (batch : ScriptBatch) :
    List (List History) :=
  batch.value.map fun row => view row.1

theorem flatten_histories_eq_nil {batch : ScriptBatch} :
    (batch.histories view).flatten = [] ↔ ∀ row ∈ batch.value, view row.1 = [] := by
  rw [flatten_eq_nil_iff, ScriptBatch.histories, forall_mem_map]

/-- `maxUsed` is the position of the last history that is not empty. -/
theorem maxUsed_some (h : maxUsed result = some p) :
    (∃ els, result[p]? = some els ∧ els ≠ []) ∧
      ∀ q els, result[q]? = some els → els ≠ [] → q ≤ p := by
  have hmem (q : Nat) : q ∈ (result.zipIdx.filter fun e => !e.1.isEmpty).map (·.2) ↔
      ∃ els, result[q]? = some els ∧ els ≠ [] := by
    constructor
    · intro hq
      obtain ⟨⟨els, _⟩, hfilter, rfl⟩ := mem_map.1 hq
      obtain ⟨hels, hne⟩ := mem_filter.1 hfilter
      exact ⟨els, mk_mem_zipIdx_iff_getElem?.1 hels, by simpa using hne⟩
    · rintro ⟨els, hels, hne⟩
      refine mem_map.2 ⟨(els, q), mem_filter.2 ⟨?_, by simpa using hne⟩, rfl⟩
      exact mk_mem_zipIdx_iff_getElem?.2 hels
  obtain ⟨hp, hmax⟩ := max?_eq_some_iff.1 h
  exact ⟨(hmem p).1 hp, fun q els hq hne => hmax q ((hmem q).2 ⟨els, hq, hne⟩)⟩

theorem maxUsed_none (h : maxUsed result = none) :
    ∀ els ∈ result, els = [] := by
  intro els hels
  rw [maxUsed, max?_eq_none_iff, map_eq_nil_iff, filter_eq_nil_iff] at h
  obtain ⟨p, hp⟩ := getElem?_of_mem hels
  have hused := h (els, p) (mk_mem_zipIdx_iff_getElem?.2 hp)
  simpa using hused

theorem histories_getElem? {batch : ScriptBatch} : (batch.histories view)[p]? = some els ↔
      ∃ row, batch.value[p]? = some row ∧ view row.1 = els := by
  rw [ScriptBatch.histories, getElem?_map, Option.map_eq_some_iff]

theorem maxUsed_histories {batch : ScriptBatch} (h : maxUsed (batch.histories view) = some p) :
    (∃ row, batch.value[p]? = some row ∧ view row.1 ≠ []) ∧
      ∀ q row, batch.value[q]? = some row → view row.1 ≠ [] → q ≤ p := by
  obtain ⟨⟨els, hels, hne⟩, hmax⟩ := maxUsed_some h
  obtain ⟨row, hrow, rfl⟩ := histories_getElem?.1 hels
  refine ⟨⟨row, hrow, hne⟩, fun q row' hq hused => ?_⟩
  exact hmax q _ (histories_getElem?.2 ⟨row', hq, rfl⟩) hused

theorem maxUsed_histories_none {batch : ScriptBatch}
    (h : maxUsed (batch.histories view) = none) : ∀ row ∈ batch.value, view row.1 = [] := by
  intro row hrow
  exact maxUsed_none h _ (mem_map_of_mem hrow)

def Data.process (view : Script → List History) (d : Data) (chain : Chain) (batchCount : UInt32)
    (batch : ScriptBatch) : Data :=
  (batch.histories view).flatten.foldl Data.record
    (d.visit chain batchCount batch (batch.histories view))

theorem visit_txidHeight (d : Data) (chain : Chain) (b : UInt32) (batch : ScriptBatch)
    (result : List (List History)) : (d.visit chain b batch result).txidHeight = d.txidHeight := by
  unfold Data.visit
  cases batch.cached <;> cases maxUsed result <;> cases chain <;> rfl

theorem visit_scripts (d : Data) (chain : Chain) (b : UInt32) (batch : ScriptBatch)
    (result : List (List History)) : (d.visit chain b batch result).scripts =
      if batch.cached then d.scripts else d.scripts.extend batch.value := by
  unfold Data.visit
  cases batch.cached <;> cases maxUsed result <;> cases chain <;> rfl

theorem visit_lastUnused (d : Data) (chain chain' : Chain) (b : UInt32) (batch : ScriptBatch)
    (result : List (List History)) : (d.visit chain b batch result).lastUnused.get chain' =
      if chain' = chain then
        ((maxUsed result).map fun last => 1 + UInt32.ofNat last + b * batchSize).getD
          (d.lastUnused.get chain')
      else d.lastUnused.get chain' := by
  unfold Data.visit
  cases batch.cached <;> cases maxUsed result <;> cases chain <;> cases chain' <;> rfl

variable {env : Env} {c : Cache} {chain : Chain} {b : UInt32} {batch : ScriptBatch}

theorem Consecutive.mem (h : Consecutive env c chain (20 * b.toNat) batch.value)
    {row : ScriptRow} (hrow : row ∈ batch.value) :
    ∃ p, batch.value[p]? = some row ∧ row.2.1 = chain ∧ row.index = 20 * b.toNat + p ∧
      row.index < 2 ^ 31 := by
  obtain ⟨p, hp⟩ := getElem?_of_mem hrow
  obtain ⟨hchain, hindex, hlt⟩ := rowAt_path (h p row hp)
  exact ⟨p, hp, hchain, hindex, hindex ▸ hlt⟩

theorem process_scripts (d : Data) (chain : Chain) (b : UInt32) (batch : ScriptBatch) :
    (d.process view chain b batch).scripts =
      if batch.cached then d.scripts else d.scripts.extend batch.value := by
  rw [Data.process, foldl_record_scripts, visit_scripts]

variable (hb : b.toNat ≤ brokenBatch) (hrows : Consecutive env c chain (20 * b.toNat) batch.value)
  (hbefore : ∀ row ∈ rows, row.2.1 = chain → row.index < 20 * b.toNat)

include hb hrows hbefore

theorem IsLastUnused.visit {chain' : Chain}
    (h : IsLastUnused view rows chain' (d.lastUnused.get chain')) :
    IsLastUnused view (rows ++ batch.value) chain'
      ((d.visit chain b batch (batch.histories view)).lastUnused.get chain') := by
  obtain ⟨hlast, hattained⟩ := h
  rw [visit_lastUnused]
  by_cases hchain : chain' = chain
  · subst hchain
    rw [if_pos rfl]
    cases hmax : maxUsed (batch.histories view) with
    | none =>
      have hunused := maxUsed_histories_none hmax
      rw [Option.map_none, Option.getD_none]
      refine ⟨fun row hrow hc hne => ?_, ?_⟩
      · rcases mem_append.1 hrow with hold | hnew
        · exact hlast row hold hc hne
        · exact absurd (hunused row hnew) hne
      · rcases hattained with hzero | ⟨row, hrow, hrest⟩
        · exact .inl hzero
        · exact .inr ⟨row, mem_append_left _ hrow, hrest⟩
    | some p =>
      obtain ⟨⟨last, hp, hused⟩, hmost⟩ := maxUsed_histories hmax
      have hmem := mem_of_getElem? hp
      obtain ⟨hc, hindex, hlt⟩ := rowAt_path (hrows p last hp)
      have hb' : b.toNat ≤ 107374182 := hb
      have hnat : (1 + UInt32.ofNat p + b * batchSize).toNat = 1 + p + 20 * b.toNat := by
        rw [UInt32.toNat_add, UInt32.toNat_add, toNat_mul_batchSize hb, UInt32.toNat_ofNat',
          show (1 : UInt32).toNat = 1 from rfl]
        omega
      rw [Option.map_some, Option.getD_some]
      refine ⟨fun row hrow hc' hne => ?_, .inr ⟨last, mem_append_right _ hmem, hc,
        hused, by omega⟩⟩
      rw [hnat]
      rcases mem_append.1 hrow with hold | hnew
      · have := hbefore row hold hc'
        omega
      · obtain ⟨q, hq, -, hindex', -⟩ := hrows.mem hnew
        have := hmost q row hq hne
        omega
  · rw [if_neg hchain]
    refine ⟨fun row hrow hc hne => ?_, ?_⟩
    · rcases mem_append.1 hrow with hold | hnew
      · exact hlast row hold hc hne
      · obtain ⟨-, -, hc', -, -⟩ := hrows.mem hnew
        exact absurd (hc.symm.trans hc') hchain
    · rcases hattained with hzero | ⟨row, hrow, hrest⟩
      · exact .inl hzero
      · exact .inr ⟨row, mem_append_left _ hrow, hrest⟩

/-- **One batch.** -/
theorem Describes.process (h : Describes view rows d) :
    Describes view (rows ++ batch.value) (d.process view chain b batch) := by
  have hflat (el : History) : el ∈ (batch.histories view).flatten ↔
      ∃ row ∈ batch.value, el ∈ view row.1 := by
    rw [← flatMap_id, ScriptBatch.histories, flatMap_map, mem_flatMap]
    rfl
  refine ⟨fun t => ?_, fun t height hlookup => ?_, fun chain' => ?_⟩
  · rw [Data.process, mem_foldl_record, visit_txidHeight, h.listed]
    simp only [hflat, mem_append]
    constructor
    · rintro (⟨row, hrow, hel⟩ | ⟨el, ⟨row, hrow, hel⟩, rfl⟩)
      · exact ⟨row, .inl hrow, hel⟩
      · exact ⟨row, .inr hrow, el, hel, rfl⟩
    · rintro ⟨row, hold | hnew, el, hel, rfl⟩
      · exact .inl ⟨row, hold, el, hel, rfl⟩
      · exact .inr ⟨el, ⟨row, hnew, hel⟩, rfl⟩
  · rcases lookup_foldl_record hlookup with hold | ⟨el, hel, ht, hreported⟩
    · rw [visit_txidHeight] at hold
      obtain ⟨row, hrow, hel⟩ := h.reported t height hold
      exact ⟨row, mem_append_left _ hrow, hel⟩
    · obtain ⟨row, hrow, hel⟩ := (hflat el).1 hel
      exact ⟨row, mem_append_right _ hrow, el, hel, ht, hreported⟩
  · rw [Data.process, foldl_record_lastUnused]
    exact (h.lastUnused chain').visit hb hrows hbefore

end Data

/-! ## The loop -/

/-- The server lists for each script what `view` says. -/
def Backend.Shows (server : Backend) (view : Script → List History) : Prop :=
  ∀ scripts, server.getScriptsHistory scripts = .ok (scripts.map view)

section Loop

variable {env : Env} {server : Backend} {view : Script → List History} {c : Cache}
  {chain : Chain} {hasWildcard : Bool} {index b : UInt32} {fuel : Nat} {data : Data}
  {batch : ScriptBatch}

def StopsAt (view : Script → List History) (index b : UInt32) (batch : ScriptBatch) : Prop :=
  (∀ row ∈ batch.value, view row.1 = []) ∧ index ≤ 1 + b * batchSize

variable (hserver : server.Shows view)
  (hbatch : c.getScriptBatch env.secp env.descriptor b chain = .ok batch)

include hserver hbatch

theorem historyTrace_stop (hstop : StopsAt view index b batch) :
    historyTrace env server c chain hasWildcard index (fuel + 1) b data =
      ([batch], .ok (data.process view chain b batch, false)) := by
  have hflat := flatten_histories_eq_nil.2 hstop.1
  have hmap : (batch.value.map (·.1)).map view = batch.histories view := map_map ..
  rw [historyTrace, hbatch]
  simp only [hserver _, hmap, hflat, Data.process, hstop.2, isEmpty_nil, decide_true,
    Bool.and_true, if_true, foldl_nil]

theorem historyTrace_continue (hstop : ¬ StopsAt view index b batch) :
    historyTrace env server c chain hasWildcard index (fuel + 1) b data =
      if hasWildcard then
        (batch :: (historyTrace env server c chain hasWildcard index fuel (b + 1)
            (data.process view chain b batch)).1,
          (historyTrace env server c chain hasWildcard index fuel (b + 1)
            (data.process view chain b batch)).2)
      else ([batch], .ok (data.process view chain b batch, true)) := by
  have hmap : (batch.value.map (·.1)).map view = batch.histories view := map_map ..
  have hcond : ((batch.histories view).flatten.isEmpty && decide (index ≤ 1 + b * batchSize)) =
      false := by
    rw [Bool.and_eq_false_imp, List.isEmpty_iff]
    intro hflat
    rw [decide_eq_false_iff_not]
    exact fun hindex => hstop ⟨flatten_histories_eq_nil.1 hflat, hindex⟩
  rw [historyTrace, hbatch]
  simp only [hserver _, hmap, hcond, Bool.false_eq_true, if_false]
  cases hasWildcard with
  | true => rfl
  | false => rfl

omit hserver hbatch

theorem toNat_succ {b : UInt32} (hb : b.toNat < brokenBatch) : (b + 1).toNat = b.toNat + 1 := by
  have hb' : b.toNat < 107374182 := hb
  rw [UInt32.toNat_add, show (1 : UInt32).toNat = 1 from rfl]
  omega

theorem getScriptBatch_full (hdesc : env.descriptor.spkCount = none) (hb : b.toNat ≤ brokenBatch)
    (hbatch : c.getScriptBatch env.secp env.descriptor b chain = .ok batch) :
    b.toNat < brokenBatch ∧
      ∀ row : ScriptRow, row ∈ batch.value → row.index < 20 * (b.toNat + 1) := by
  obtain ⟨hrows, hlength, -⟩ := getScriptBatch_descriptor hdesc hb hbatch
  constructor
  · have hlast : batch.value[19]? = some (batch.value[19]) := getElem?_eq_getElem (by omega)
    obtain ⟨-, -, hlt⟩ := rowAt_path (hrows 19 _ hlast)
    rw [brokenBatch]
    omega
  · intro row hrow
    obtain ⟨p, hp, -, hindex, -⟩ := hrows.mem hrow
    have hlt := (List.getElem?_eq_some_iff.1 hp).1
    omega

/-- What a loop over the batches of a chain leaves behind. -/
structure LoopResult (view : Script → List History) (chain : Chain) (rows : List ScriptRow)
    (data : Data) (asked : List ScriptBatch) (data' : Data) : Prop where
  describes : Describes view (rows ++ asked.flatMap (·.value)) data'
  chain : ∀ row ∈ asked.flatMap (·.value), row.2.1 = chain
  scripts : (∀ s, s ∉ data'.scripts) ↔
    (∀ s, s ∉ data.scripts) ∧ ∀ batch ∈ asked, batch.cached = true

theorem process_scripts_empty (hcached : batch.cached = false → batch.value ≠ []) :
    (∀ s, s ∉ (data.process view chain b batch).scripts) ↔
      (∀ s, s ∉ data.scripts) ∧ batch.cached = true := by
  rw [process_scripts]
  cases hflag : batch.cached with
  | true => simp
  | false =>
    simp only [Bool.false_eq_true, if_false, and_false, iff_false, not_forall, not_not]
    obtain ⟨row, hrow⟩ := exists_mem_of_ne_nil _ (hcached hflag)
    exact ⟨row.1, HashMap.mem_extend.2 (.inl ⟨row.2, hrow⟩)⟩

variable {rows : List ScriptRow}

theorem LoopResult.single (hb : b.toNat ≤ brokenBatch)
    (hrows : Consecutive env c chain (20 * b.toNat) batch.value)
    (hcached : batch.cached = false → batch.value ≠ [])
    (hbefore : ∀ row ∈ rows, row.2.1 = chain → row.index < 20 * b.toNat)
    (h : Describes view rows data) :
    LoopResult view chain rows data [batch] (data.process view chain b batch) where
  describes := by
    simpa using h.process hb hrows hbefore
  chain := by
    intro row hrow
    obtain ⟨-, -, hchain, -⟩ := hrows.mem (by simpa using hrow)
    exact hchain
  scripts := by
    rw [process_scripts_empty hcached, forall_mem_singleton]

theorem LoopResult.trans {data₁ data₂ : Data} {rest : List ScriptBatch}
    (h₁ : LoopResult view chain rows data [batch] data₁)
    (h₂ : LoopResult view chain (rows ++ batch.value) data₁ rest data₂) :
    LoopResult view chain rows data (batch :: rest) data₂ where
  describes := by
    simpa [append_assoc] using h₂.describes
  chain := by
    intro row hrow
    rw [flatMap_cons] at hrow
    rcases mem_append.1 hrow with hrow | hrow
    · exact h₁.chain row (by simpa using hrow)
    · exact h₂.chain row hrow
  scripts := by
    rw [h₂.scripts, h₁.scripts, forall_mem_singleton, forall_mem_cons, and_assoc]

/-- **One chain.** -/
theorem historyTrace_result (hserver : server.Shows view)
    (hspks : env.descriptor.spkCount ≠ none → chain = .external ∧ hasWildcard = false)
     {asked : List ScriptBatch} {data' : Data} {returned : Bool}
    (hb : b.toNat ≤ brokenBatch) (hstart : hasWildcard = false → b = 0)
    (hbefore : ∀ row ∈ rows, row.2.1 = chain → row.index < 20 * b.toNat)
    (hdata : Describes view rows data)
    (h : historyTrace env server c chain hasWildcard index fuel b data =
      (asked, .ok (data', returned))) :
    LoopResult view chain rows data asked data' := by
  induction fuel generalizing b data rows asked with
  | zero => simp [historyTrace] at h
  | succ fuel ih =>
    cases hbatch : c.getScriptBatch env.secp env.descriptor b chain with
    | error e => simp [historyTrace, hbatch] at h
    | ok batch =>
      have hspks' : env.descriptor.spkCount ≠ none → b = 0 ∧ chain = .external :=
        fun hne => ⟨hstart (hspks hne).2, (hspks hne).1⟩
      obtain ⟨hrows, hcached⟩ := getScriptBatch_consecutive hspks' hb hbatch
      have hsingle := LoopResult.single hb hrows hcached hbefore hdata
      by_cases hstop : StopsAt view index b batch
      · rw [historyTrace_stop hserver hbatch hstop] at h
        cases h
        exact hsingle
      · rw [historyTrace_continue hserver hbatch hstop] at h
        cases hasWildcard with
        | false =>
          cases h
          exact hsingle
        | true =>
          have hdesc : env.descriptor.spkCount = none := by
            by_contra hne
            exact absurd (hspks hne).2 (by simp)
          obtain ⟨hlt, hend⟩ := getScriptBatch_full hdesc hb hbatch
          have hsucc := toNat_succ hlt
          rw [if_pos rfl] at h
          injection h with hasked hok
          subst hasked
          refine hsingle.trans (ih (b := b + 1) (by omega) (by simp) ?_ ?_ ?_)
          · intro row hrow hchain
            rw [hsucc]
            rcases mem_append.1 hrow with hold | hnew
            · have := hbefore row hold hchain
              omega
            · exact hend row hnew
          · simpa using hsingle.describes
          · rw [← hok]

/-- **All chains**, each scanned once. -/
theorem historyTraceOf_result {lastUnused : LastUnused} {chains : List (Option Chain × Bool)}
     {asked : List ScriptBatch} {data' : Data}
    (hserver : server.Shows view)
    (hspks : env.descriptor.spkCount ≠ none → ∀ e ∈ chains, e = (some .external, false))
    (hnodup : (chains.map fun e => e.1.getD .external).Nodup)
    (hbefore : ∀ row ∈ rows, row.2.1 ∉ chains.map fun e => e.1.getD .external)
    (hdata : Describes view rows data)
    (h : historyTraceOf env server c index lastUnused chains data = (asked, .ok data')) :
    Describes view (rows ++ asked.flatMap (·.value)) data' ∧ ((∀ s, s ∉ data'.scripts) ↔
        (∀ s, s ∉ data.scripts) ∧ ∀ batch ∈ asked, batch.cached = true) := by
  induction chains generalizing rows data asked with
  | nil =>
    cases h
    simpa using hdata
  | cons entry chains ih =>
    obtain ⟨chain?, hasWildcard⟩ := entry
    simp only [map_cons, nodup_cons, mem_cons, not_or] at hnodup hbefore
    have hentry (hne : env.descriptor.spkCount ≠ none) :
        chain?.getD .external = .external ∧ hasWildcard = false := by
      cases hspks hne _ (mem_cons_self ..)
      exact ⟨rfl, rfl⟩
    simp only [historyTraceOf] at h
    cases htrace : historyTrace env server c (chain?.getD .external) hasWildcard
        (max index (lastUnused.get (chain?.getD .external))) maxBatches 0 data with
    | mk first r =>
      rw [htrace] at h
      cases r with
      | error e => simp at h
      | ok r =>
        obtain ⟨data₁, returned⟩ := r
        have hloop := historyTrace_result hserver hentry (by decide) (fun _ => rfl)
          (fun row hrow hchain => absurd hchain (hbefore row hrow).1) hdata htrace
        cases returned with
        | true =>
          cases h
          exact ⟨hloop.describes, hloop.scripts⟩
        | false =>
          simp only [Bool.false_eq_true, if_false] at h
          injection h with hasked hok
          subst hasked
          have hbefore' : ∀ row ∈ rows ++ first.flatMap (·.value),
              row.2.1 ∉ chains.map fun e => e.1.getD .external := by
            intro row hrow
            rcases mem_append.1 hrow with hold | hnew
            · exact (hbefore row hold).2
            · rw [hloop.chain row hnew]
              exact hnodup.1
          obtain ⟨hdescribes, hscripts⟩ := ih
            (fun hne e he => hspks hne e (mem_cons_of_mem _ he)) hnodup.2
            hbefore' hloop.describes (Prod.ext rfl hok)
          refine ⟨?_, ?_⟩
          · simpa [append_assoc] using hdescribes
          · rw [hscripts, hloop.scripts, and_assoc, forall_mem_append]

end Loop

/-- The chains of a descriptor are told apart; `WolletDescriptor` rejects others. -/
def WolletDescriptor.ChainsDistinct (d : WolletDescriptor) : Prop :=
  (d.asSingleDescriptors.map fun e => e.1.getD .external).Nodup

/-- **What `get_history` collects** is what the server lists for the scripts it was asked about;
it brings no script exactly when every batch counts as cached. -/
theorem getHistory_describes {env : Env} {server : Backend} {view : Script → List History}
    {w : Wollet} {index : UInt32} {data : Data} (hserver : server.Shows view)
    (hchains : env.descriptor.ChainsDistinct) (h : getHistory env server w index = .ok data) :
    Describes view (queriedScripts env server w index) data ∧ ((∀ s, s ∉ data.scripts) ↔
        ∀ batch ∈ queriedBatches env server w index, batch.cached = true) := by
  have hspks : env.descriptor.spkCount ≠ none →
      ∀ e ∈ env.descriptor.asSingleDescriptors, e = (some .external, false) := by
    unfold WolletDescriptor.spkCount WolletDescriptor.asSingleDescriptors
    cases env.descriptor.inner with
    | desc d => simp
    | spks l => simp
  rw [getHistory, ← historyTraceOf_snd] at h
  obtain ⟨hdescribes, hscripts⟩ := historyTraceOf_result hserver hspks hchains (by simp)
    (describes_default view) (Prod.ext rfl h)
  refine ⟨hdescribes, hscripts.trans ?_⟩
  simp [Data.default, AList.notMem_empty, queriedBatches]

end Swk
