import Swk.HistoryTrace

/-!
# The gap scan

The scan leaves a chain at the first batch that has no history and starts late enough. A used
index that no twenty unused ones in a row separate from the start lies before that batch, wherever
the batches begin and end.

A chain has only 2³¹ child numbers and the last of them do not fill a batch, so a scan that has
not stopped before them fails. For a descriptor with an external and an internal chain
`getHistory_complete` says when the scan ends with a result and what it has asked about by then.
-/

namespace Swk

open Cache

/-! ## Coverage -/

/-- An index of a chain is used: its script has a history. -/
def Used (env : Env) (view : Script → List History) (c : Cache) (chain : Chain) (i : Nat) : Prop :=
  ∃ row, rowAt env c chain i = some row ∧ view row.1 ≠ []

/-- An index can be reached from the start without crossing `gap` unused indexes in a row. -/
def Reachable (used : Nat → Prop) (gap i : Nat) : Prop :=
  ∀ start, start + gap ≤ i → ∃ j, start ≤ j ∧ j < start + gap ∧ used j

/-- The scan can leave the chain at batch `k`: nothing in it is used and it starts late enough. -/
def Quiet (env : Env) (view : Script → List History) (c : Cache) (chain : Chain) (index : UInt32)
    (k : Nat) : Prop :=
  (∀ i, 20 * k ≤ i → i < 20 * (k + 1) → ¬ Used env view c chain i) ∧ index.toNat ≤ 1 + 20 * k

/-- The rows are the scripts of the indexes of a range. -/
def Spans (env : Env) (c : Cache) (chain : Chain) (rows : List ScriptRow) (lo hi : Nat) : Prop :=
  ∀ row, row ∈ rows ↔ ∃ i, lo ≤ i ∧ i < hi ∧ rowAt env c chain i = some row

section Coverage

variable {env : Env} {server : Backend} {view : Script → List History} {c : Cache}
  {chain : Chain} {index b : UInt32} {batch : ScriptBatch}

theorem getScriptBatch_spans (hdesc : env.descriptor.spkCount = none) (hb : b.toNat ≤ brokenBatch)
    (hbatch : c.getScriptBatch env.secp env.descriptor b chain = .ok batch) :
    Spans env c chain batch.value (20 * b.toNat) (20 * (b.toNat + 1)) := by
  obtain ⟨hrows, hlength, -⟩ := getScriptBatch_descriptor hdesc hb hbatch
  intro row
  constructor
  · intro hrow
    obtain ⟨p, hp⟩ := List.getElem?_of_mem hrow
    have hlt := (List.getElem?_eq_some_iff.1 hp).1
    exact ⟨20 * b.toNat + p, by omega, by omega, hrows p row hp⟩
  · rintro ⟨i, hlo, hhi, hrow⟩
    have hlt : i - 20 * b.toNat < batch.value.length := by omega
    have hget := List.getElem?_eq_getElem hlt
    have hsame := hrows _ _ hget
    rw [show 20 * b.toNat + (i - 20 * b.toNat) = i by omega, hrow] at hsame
    cases hsame
    exact List.getElem_mem hlt

theorem Spans.append {rows rows' : List ScriptRow} {lo mid hi : Nat} (hlo : lo ≤ mid)
    (hhi : mid ≤ hi) (h : Spans env c chain rows lo mid) (h' : Spans env c chain rows' mid hi) :
    Spans env c chain (rows ++ rows') lo hi := by
  intro row
  rw [List.mem_append, h row, h' row]
  constructor
  · rintro (⟨i, h₁, h₂, hrow⟩ | ⟨i, h₁, h₂, hrow⟩)
    · exact ⟨i, h₁, by omega, hrow⟩
    · exact ⟨i, by omega, h₂, hrow⟩
  · rintro ⟨i, h₁, h₂, hrow⟩
    by_cases hi : i < mid
    · exact .inl ⟨i, h₁, hi, hrow⟩
    · exact .inr ⟨i, by omega, h₂, hrow⟩

theorem stopsAt_iff_quiet (hb : b.toNat ≤ brokenBatch)
    (hspans : Spans env c chain batch.value (20 * b.toNat) (20 * (b.toNat + 1))) :
    StopsAt view index b batch ↔ Quiet env view c chain index b.toNat := by
  have hindex : index ≤ 1 + b * batchSize ↔ index.toNat ≤ 1 + 20 * b.toNat := by
    have hb' : b.toNat ≤ 107374182 := hb
    rw [UInt32.le_iff_toNat_le, UInt32.toNat_add, toNat_mul_batchSize hb,
      show (1 : UInt32).toNat = 1 from rfl]
    omega
  rw [StopsAt, Quiet, hindex]
  refine and_congr_left fun _ => ⟨fun h i hlo hhi hused => ?_, fun h row hrow => ?_⟩
  · obtain ⟨row, hrow, hne⟩ := hused
    exact hne (h row ((hspans row).2 ⟨i, hlo, hhi, hrow⟩))
  · obtain ⟨i, hlo, hhi, hget⟩ := (hspans row).1 hrow
    by_contra hne
    exact h i hlo hhi ⟨row, hget, hne⟩

/-- **The scan of a chain with a wildcard ends.** It leaves the chain at a quiet batch, and if no
batch is quiet it fails where the child numbers end. -/
theorem historyTrace_wildcard (chain : Chain) (index : UInt32)
    (hdesc : env.descriptor.spkCount = none) (hderive : Derivable env c)
    (hserver : server.Shows view) {m fuel : Nat} (data : Data) (hm : b.toNat + m = brokenBatch)
    (hfuel : m < fuel) :
    (∃ k asked data', b.toNat ≤ k ∧ k < brokenBatch ∧ Quiet env view c chain index k ∧
      historyTrace env server c chain true index fuel b data = (asked, .ok (data', false)) ∧
      Spans env c chain (asked.flatMap (·.value)) (20 * b.toNat) (20 * (k + 1))) ∨
    (∃ asked, historyTrace env server c chain true index fuel b data =
        (asked, .error .bitcoinBip32Error) ∧
      Spans env c chain (asked.flatMap (·.value)) (20 * b.toNat) (20 * brokenBatch) ∧
      ∀ k, b.toNat ≤ k → k < brokenBatch → ¬ Quiet env view c chain index k) := by
  obtain ⟨fuel, rfl⟩ : ∃ n, fuel = n + 1 := ⟨fuel - 1, by omega⟩
  induction m generalizing b fuel data with
  | zero =>
    right
    have hbroken : c.getScriptBatch env.secp env.descriptor b chain =
        .error .bitcoinBip32Error := getScriptBatch_broken hdesc hderive (by omega)
    refine ⟨[], by rw [historyTrace, hbroken], fun row => ?_, fun k hk hlt => by omega⟩
    simp only [List.flatMap_nil, List.not_mem_nil, false_iff, not_exists]
    intro i hi
    omega
  | succ m ih =>
    have hlt : b.toNat < brokenBatch := by omega
    have hsucc := toNat_succ hlt
    obtain ⟨batch, hbatch⟩ := getScriptBatch_exists chain hdesc hderive hlt
    have hspans := getScriptBatch_spans hdesc hlt.le hbatch
    by_cases hstop : StopsAt view index b batch
    · left
      refine ⟨b.toNat, [batch], _, le_refl _, hlt, (stopsAt_iff_quiet hlt.le hspans).1 hstop,
        historyTrace_stop hserver hbatch hstop, by simpa using hspans⟩
    · have hquiet := mt (stopsAt_iff_quiet hlt.le hspans).2 hstop
      obtain ⟨fuel, rfl⟩ : ∃ n, fuel = n + 1 := ⟨fuel - 1, by omega⟩
      rw [historyTrace_continue hserver hbatch hstop, if_pos rfl]
      rcases ih (b := b + 1) (data.process view chain b batch) (by omega) fuel (by omega) with
        ⟨k, asked, data', hk, hlt', hq, htrace, hspans'⟩ | ⟨asked, htrace, hspans', hnone⟩
      · left
        rw [hsucc] at hk hspans'
        rw [htrace]
        exact ⟨k, batch :: asked, data', by omega, hlt', hq, rfl,
          hspans.append (by omega) (by omega) hspans'⟩
      · right
        rw [hsucc] at hnone hspans'
        rw [htrace]
        refine ⟨batch :: asked, rfl, hspans.append (by omega) (by omega) hspans', ?_⟩
        intro k hk hlt'
        by_cases hkb : k = b.toNat
        · rw [hkb]
          exact hquiet
        · exact hnone k (by omega) hlt'

end Coverage

/-! ## Both chains -/

/-- The descriptor has an external and an internal chain, both with a wildcard. -/
def WolletDescriptor.TwoChains (d : WolletDescriptor) : Prop :=
  d.asSingleDescriptors = [(some .external, true), (some .internal, true)]

theorem WolletDescriptor.TwoChains.spkCount {d : WolletDescriptor} (h : d.TwoChains) :
    d.spkCount = none := by
  unfold TwoChains asSingleDescriptors at h
  unfold WolletDescriptor.spkCount
  cases hinner : d.inner with
  | desc c => rfl
  | spks l => simp [hinner] at h

theorem WolletDescriptor.TwoChains.chainsDistinct {d : WolletDescriptor} (h : d.TwoChains) :
    d.ChainsDistinct := by
  rw [ChainsDistinct, h]
  decide

section Both

variable {env : Env} {server : Backend} {view : Script → List History} {w : Wollet}
  {index : UInt32}

def Wollet.scanIndex (w : Wollet) (index : UInt32) (chain : Chain) : UInt32 :=
  max index (w.lastUnused.get chain)

section Scan

variable (hchains : env.descriptor.TwoChains) (hderive : Derivable env w.cache)
  (hserver : server.Shows view)

include hchains hderive hserver

theorem historyTrace_chain (index : UInt32) (chain : Chain) (data : Data) :
    (∃ k asked data', k < brokenBatch ∧ Quiet env view w.cache chain (w.scanIndex index chain) k ∧
      historyTrace env server w.cache chain true (w.scanIndex index chain) maxBatches 0 data =
        (asked, .ok (data', false)) ∧
      Spans env w.cache chain (asked.flatMap (·.value)) 0 (20 * (k + 1))) ∨
    (∃ asked, historyTrace env server w.cache chain true (w.scanIndex index chain) maxBatches 0
        data = (asked, .error .bitcoinBip32Error) ∧
      Spans env w.cache chain (asked.flatMap (·.value)) 0 (20 * brokenBatch) ∧
      ∀ k < brokenBatch, ¬ Quiet env view w.cache chain (w.scanIndex index chain) k) := by
  have hfuel : brokenBatch < maxBatches := by decide
  refine (historyTrace_wildcard (b := 0) chain (w.scanIndex index chain) hchains.spkCount hderive
    hserver data (Nat.zero_add _) hfuel).imp ?_ ?_
  · rintro ⟨k, asked, data', -, hk⟩
    exact ⟨k, asked, data', hk⟩
  · rintro ⟨asked, htrace, hspans, hnone⟩
    exact ⟨asked, htrace, hspans, fun k => hnone k (Nat.zero_le k)⟩

theorem getHistory_external_fails
    (h : ∀ k < brokenBatch, ¬ Quiet env view w.cache .external (w.scanIndex index .external) k) :
    getHistory env server w index = .error .bitcoinBip32Error ∧
      Spans env w.cache .external (queriedScripts env server w index) 0 (20 * brokenBatch) := by
  rcases historyTrace_chain hchains hderive hserver index .external .default with
    ⟨k, -, -, hk, hquiet, -⟩ | ⟨asked, htrace, hspans, -⟩
  · exact absurd hquiet (h k hk)
  · rw [getHistory, ← historyTraceOf_snd, queriedScripts, queriedBatches, hchains]
    simp only [historyTraceOf, Option.getD_some]
    rw [Wollet.scanIndex] at htrace
    rw [htrace]
    exact ⟨rfl, hspans⟩

/-- **The scan of both chains.** -/
theorem getHistory_cases (index : UInt32) :
    (∃ data, ∃ k : Chain → Nat, getHistory env server w index = .ok data ∧
      (∀ chain, k chain < brokenBatch ∧
        Quiet env view w.cache chain (w.scanIndex index chain) (k chain)) ∧
      ∀ row, row ∈ queriedScripts env server w index ↔
        ∃ chain i, i < 20 * (k chain + 1) ∧ rowAt env w.cache chain i = some row) ∨
    (getHistory env server w index = .error .bitcoinBip32Error ∧ ∃ chain, ∀ k < brokenBatch,
        ¬ Quiet env view w.cache chain (w.scanIndex index chain) k) := by
  rcases historyTrace_chain hchains hderive hserver index .external .default with
    ⟨kₑ, asked₁, data₁, hkₑ, hquietₑ, htrace₁, hspans₁⟩ | ⟨-, -, -, hnone⟩
  · rcases historyTrace_chain hchains hderive hserver index .internal data₁ with
      ⟨kᵢ, asked₂, data₂, hkᵢ, hquietᵢ, htrace₂, hspans₂⟩ | ⟨asked₂, htrace₂, -, hnone⟩
    · left
      rw [Wollet.scanIndex] at htrace₁ htrace₂
      refine ⟨data₂, fun chain => if chain = .external then kₑ else kᵢ, ?_, ?_, ?_⟩
      · rw [getHistory, ← historyTraceOf_snd, hchains]
        simp only [historyTraceOf, Option.getD_some]
        simp only [htrace₁, htrace₂, Bool.false_eq_true, if_false]
      · intro chain
        cases chain with
        | external => exact ⟨hkₑ, hquietₑ⟩
        | internal => exact ⟨hkᵢ, hquietᵢ⟩
      · intro row
        rw [queriedScripts, queriedBatches, hchains]
        simp only [historyTraceOf, Option.getD_some]
        simp only [htrace₁, htrace₂, Bool.false_eq_true, if_false, List.append_nil]
        rw [List.flatMap_append, List.mem_append, hspans₁ row, hspans₂ row]
        constructor
        · rintro (⟨i, -, hi, hrow⟩ | ⟨i, -, hi, hrow⟩)
          · exact ⟨.external, i, hi, hrow⟩
          · exact ⟨.internal, i, hi, hrow⟩
        · rintro ⟨chain, i, hi, hrow⟩
          cases chain with
          | external => exact .inl ⟨i, Nat.zero_le i, hi, hrow⟩
          | internal => exact .inr ⟨i, Nat.zero_le i, hi, hrow⟩
    · right
      refine ⟨?_, .internal, hnone⟩
      rw [getHistory, ← historyTraceOf_snd, hchains]
      simp only [historyTraceOf, Option.getD_some]
      rw [Wollet.scanIndex] at htrace₁ htrace₂
      simp only [htrace₁, htrace₂, Bool.false_eq_true, if_false]
  · right
    exact ⟨(getHistory_external_fails hchains hderive hserver hnone).1, .external, hnone⟩

end Scan

structure Covers (env : Env) (view : Script → List History) (c : Cache) (rows : List ScriptRow)
    (chain : Chain) (index : UInt32) : Prop where
  /-- Every index below the requested one. -/
  below : ∀ i < index.toNat, ∃ row ∈ rows, rowAt env c chain i = some row
  /-- Every used index up to a gap of twenty. -/
  reached : ∀ i, Used env view c chain i → Reachable (Used env view c chain) 20 i →
    ∃ row ∈ rows, rowAt env c chain i = some row

theorem covers_of_quiet {c : Cache} {rows : List ScriptRow} {chain : Chain} {k : Nat}
    (hderive : Derivable env c) (hk : k < brokenBatch) (hquiet : Quiet env view c chain index k)
    (hrows : ∀ i row, i < 20 * (k + 1) → rowAt env c chain i = some row → row ∈ rows) :
    Covers env view c rows chain index where
  below := by
    intro i hi
    have hindex := hquiet.2
    have hk' : k < 107374182 := hk
    obtain ⟨row, hrow⟩ := Option.isSome_iff_exists.1 (hderive chain i (by omega))
    exact ⟨row, hrows i row (by omega) hrow, hrow⟩
  reached := by
    intro i hused hreach
    obtain ⟨row, hrow, -⟩ := id hused
    by_cases hi : i < 20 * (k + 1)
    · exact ⟨row, hrows i row hi hrow, hrow⟩
    · -- the quiet batch is a gap before the index
      obtain ⟨j, hlo, hhi, hj⟩ := hreach (20 * k) (by omega)
      exact absurd hj (hquiet.1 j hlo (by omega))

/-- **Gap scan.** With an external and an internal chain, and a server that lists `view`,
`get_history` ends: with data if each chain has a batch of existing child numbers that is not used
and starts late enough, and else with the error that a child number does not exist. If it returns
data, it has asked about every index below the one requested and every used index that no gap of
twenty separates from the start, and the data is what the server lists for the scripts asked
about: their transactions with their heights, and for each chain the index after the last used
one. -/
theorem getHistory_complete (env : Env) (server : Backend) (view : Script → List History)
    (w : Wollet) (index : UInt32) (hchains : env.descriptor.TwoChains)
    (hderive : Derivable env w.cache) (hserver : server.Shows view) :
    ((∃ data, getHistory env server w index = .ok data) ↔ ∀ chain, ∃ k < brokenBatch,
        Quiet env view w.cache chain (w.scanIndex index chain) k) ∧
      ((∃ data, getHistory env server w index = .ok data) ∨
        getHistory env server w index = .error .bitcoinBip32Error) ∧
      ∀ data, getHistory env server w index = .ok data →
        Describes view (queriedScripts env server w index) data ∧
        (∀ row ∈ queriedScripts env server w index,
          rowAt env w.cache row.2.1 row.index = some row) ∧
        ∀ chain, Covers env view w.cache (queriedScripts env server w index) chain
          (w.scanIndex index chain) := by
  rcases getHistory_cases hchains hderive hserver index with
    ⟨data, k, hok, hquiet, hrows⟩ | ⟨herror, chain, hnone⟩
  · refine ⟨⟨fun _ chain => ⟨k chain, hquiet chain⟩, fun _ => ⟨data, hok⟩⟩, .inl ⟨data, hok⟩,
      fun data' hok' => ⟨(getHistory_describes hserver hchains.chainsDistinct hok').1, ?_, ?_⟩⟩
    · intro row hrow
      obtain ⟨chain, i, -, hget⟩ := (hrows row).1 hrow
      obtain ⟨hchain, hindex, -⟩ := rowAt_path hget
      rw [hchain, hindex]
      exact hget
    · intro chain
      exact covers_of_quiet hderive (hquiet chain).1 (hquiet chain).2
        fun i row hi hrow => (hrows row).2 ⟨chain, i, hi, hrow⟩
  · refine ⟨⟨?_, fun h => ?_⟩, .inr herror, fun data hok => ?_⟩
    · rintro ⟨data, hok⟩
      exact absurd (herror.symm.trans hok) (by simp)
    · obtain ⟨k, hk, hquiet⟩ := h chain
      exact absurd hquiet (hnone k hk)
    · exact absurd (herror.symm.trans hok) (by simp)

end Both

namespace DeepIndex

def script (chain : Chain) (index : UInt32) : Script :=
  [0x51, 0x02, if chain = .external then 0 else 1, index.toUInt8]

def chainOf (chain : Chain) : SingleDescriptor := Concrete.scripts chain true (script chain)

def env : Env :=
  { Concrete.env (fun _ => 7) [] with
    descriptor :=
      ⟨.desc (Concrete.descriptor (chainOf .external) (some (chainOf .internal)) none), false⟩ }

def view (s : Script) : List History := if s = script .external 3 then [⟨9, 5, none⟩] else []

def server : Backend := Concrete.server env 5 [] view

def wallet : Wollet := .fresh .empty

theorem twoChains : env.descriptor.TwoChains := rfl

theorem shows : server.Shows view := fun _ => rfl

theorem rowAt_wallet (chain : Chain) {i : Nat} (hi : i < 2 ^ 31) :
    rowAt env wallet.cache chain i = some (script chain (UInt32.ofNat i),
      (chain, .normal (UInt32.ofNat i), some ⟨false, 1⟩)) := by
  rw [rowAt, if_pos hi]
  cases chain with
  | external => rfl
  | internal => rfl

theorem derivable : Derivable env wallet.cache := by
  intro chain i hi
  rw [rowAt_wallet chain hi]
  rfl

/-- A requested index behind the last child number: the scan fails, and has not asked about the
internal chain. -/
theorem getHistory_deep : getHistory env server wallet 0xffffffff = .error .bitcoinBip32Error ∧
      ¬ ∃ row ∈ queriedScripts env server wallet 0xffffffff,
        rowAt env wallet.cache .internal 0 = some row := by
  have hnone (k : Nat) (hk : k < brokenBatch) :
      ¬ Quiet env view wallet.cache .external (wallet.scanIndex 0xffffffff .external) k := by
    intro hquiet
    have hindex := hquiet.2
    have hmax : (wallet.scanIndex 0xffffffff .external).toNat = 4294967295 := by decide
    have hk' : k < 107374182 := hk
    omega
  obtain ⟨herror, hspans⟩ := getHistory_external_fails twoChains derivable shows hnone
  refine ⟨herror, ?_⟩
  rintro ⟨row, hrow, hinternal⟩
  obtain ⟨i, -, -, hexternal⟩ := (hspans row).1 hrow
  have hchain := (rowAt_path hexternal).1.symm.trans (rowAt_path hinternal).1
  exact absurd hchain (by decide)

theorem quiet (chain : Chain) : Quiet env view wallet.cache chain (wallet.scanIndex 0 chain) 1 := by
  constructor
  · intro i hlo hhi
    rintro ⟨row, hrow, hused⟩
    rw [rowAt_wallet chain (by omega)] at hrow
    cases hrow
    apply hused
    have hne : script chain (UInt32.ofNat i) ≠ script .external 3 := by
      intro heq
      have hbyte : (UInt32.ofNat i).toUInt8 = 3 := by
        simp only [script, List.cons.injEq, true_and, and_true] at heq
        exact heq.2
      have hnat := congrArg UInt8.toNat hbyte
      rw [UInt32.toNat_toUInt8, UInt32.toNat_ofNat', show (3 : UInt8).toNat = 3 from rfl] at hnat
      omega
    exact if_neg hne
  · cases chain with
    | external => decide
    | internal => decide

/-- The scan of a new wallet finds the used script. -/
theorem getHistory_complete_used : ∃ data, getHistory env server wallet 0 = .ok data ∧
    (∃ row ∈ queriedScripts env server wallet 0,
      rowAt env wallet.cache .external 3 = some row) ∧ 9 ∈ data.txidHeight := by
  obtain ⟨hends, -, hdata⟩ := getHistory_complete env server view wallet 0 twoChains derivable shows
  obtain ⟨data, hok⟩ := hends.2 fun chain => ⟨1, by decide, quiet chain⟩
  obtain ⟨hdescribes, -, hcovers⟩ := hdata data hok
  have hrow := rowAt_wallet .external (i := 3) (by decide)
  have hqueried := (hcovers .external).reached 3 ⟨_, hrow, by decide⟩ fun start hstart => by omega
  refine ⟨data, hok, hqueried, ?_⟩
  obtain ⟨row, hmem, hrow'⟩ := hqueried
  cases hrow.symm.trans hrow'
  exact (hdescribes.listed 9).2 ⟨_, hmem, ⟨9, 5, none⟩, List.mem_singleton_self _, rfl⟩

end DeepIndex

end Swk
