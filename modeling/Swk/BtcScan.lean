import Swk.GapScan

/-!
# The Bitcoin gap scan

The Bitcoin side of the wallet asks an explorer about its addresses in batches, twenty indexes of
both chains at a time, until a whole batch shows no activity (`scan`, from `btc/core.rs` and
`btc/wallet.rs`). A running sum and two running maxima say what the wallet has and which index of
each chain is next. Spendable coins are then looked up for the keys of a window that is computed
from the result (`windowKeys`).

**Theorem (`scan_sees`).** Below the limit on batches the scan asks about every index that twenty
quiet ones in a row do not separate from the start, and the window contains what it asked about and
the next change index, each once.

One slot after another keeps `Tallied`: the sum and the maxima are those of the slots absorbed so
far. The loop keeps `Frontier`: the slots absorbed are those of all indexes below the frontier, and
every batch but the last was active.
-/

namespace Swk.BtcScan

open List

def gap : Nat := 20

def maxBatches : Nat := 64

structure Stats where
  fundedTxoSum : Int64
  spentTxoSum : Int64
  txCount : Int64

structure AddrInfo where
  chainStats : Stats
  mempoolStats : Stats

/-- A place on the keychain: whether it is on the internal chain, and its index. -/
abbrev Slot := Bool × Nat

/-- `BtcScan`. -/
structure Scan where
  balanceSats : UInt64
  externalNext : Nat
  changeNext : Nat
  scanLimit : Nat

structure ScanState where
  balance : Int64
  extMax : Int
  chgMax : Int
  scanned : Nat

def AddrInfo.net (info : AddrInfo) : Int64 :=
  (info.chainStats.fundedTxoSum - info.chainStats.spentTxoSum) +
    (info.mempoolStats.fundedTxoSum - info.mempoolStats.spentTxoSum)

def AddrInfo.active (info : AddrInfo) : Bool :=
  decide (0 < info.chainStats.txCount + info.mempoolStats.txCount)

namespace ScanState

def new : ScanState := ⟨0, -1, -1, gap⟩

def batchSlots (start : Nat) : List Slot :=
  (List.range' start gap).flatMap fun i => [(false, i), (true, i)]

section Keychain

variable {Key : Type} (derive : Bool → Nat → Except Error Key) (address : Key → String)

def batchAddresses (start : Nat) : Except Error (List Slot × List String) := do
  let addrs ← (batchSlots start).mapM fun slot => do
    let key ← derive slot.1 slot.2
    pure (address key)
  pure (batchSlots start, addrs)

end Keychain

/-- Absorb the statistics of one slot; a fetch that failed is skipped. -/
def absorbSlot (s : ScanState × Bool) (slot : Slot) (info : Option AddrInfo) : ScanState × Bool :=
  match info with
  | none => s
  | some info =>
    let state := { s.1 with balance := s.1.balance + info.net }
    if info.active then
      (if slot.1 then { state with chgMax := max state.chgMax slot.2 }
        else { state with extMax := max state.extMax slot.2 }, true)
    else (state, s.2)

def absorb (s : ScanState) (start : Nat) (slots : List Slot) (infos : List (Option AddrInfo)) :
    ScanState × Bool :=
  let r := (slots.zip infos).foldl (fun r e => absorbSlot r e.1 e.2) (s, false)
  ({ r.1 with scanned := start + gap }, r.2)

def finish (s : ScanState) : Scan where
  balanceSats := (max s.balance 0).toUInt64
  externalNext := (s.extMax + 1).toNat
  changeNext := (s.chgMax + 1).toNat
  scanLimit := s.scanned

end ScanState

section Scan

variable {Key : Type} (derive : Bool → Nat → Except Error Key) (address : Key → String)

/-- The loop of `scan`, with the slots it has asked about. -/
def scanLoop (fetch : String → Option AddrInfo) :
    Nat → Nat → ScanState → List Slot → Except Error (ScanState × List Slot)
  | 0, _, state, asked => pure (state, asked)
  | n + 1, start, state, asked => do
      let batch ← ScanState.batchAddresses derive address start
      let infos := batch.2.map fetch
      let r := state.absorb start batch.1 infos
      if r.2 then scanLoop fetch n (start + gap) r.1 (asked ++ batch.1)
      else pure (r.1, asked ++ batch.1)

/-- `scan`: the result, and the slots asked about. -/
def scan (fetch : String → Option AddrInfo) : Except Error (Scan × List Slot) := do
  let r ← scanLoop derive address fetch maxBatches 0 .new []
  pure (r.1.finish, r.2)

def windowSlots (scanLimit changeNext : Nat) : List Slot :=
  [false, true].flatMap fun internal =>
    (List.range (max scanLimit (changeNext + 1))).map fun i => (internal, i)

def windowKeys (scanLimit changeNext : Nat) : Except Error (List Key) :=
  (windowSlots scanLimit changeNext).mapM fun slot => derive slot.1 slot.2

end Scan

/-! ## What is tallied -/

/-- `n` is one plus the largest index with a property, and zero if there is none. -/
structure IsNext (p : Nat → Prop) (n : Nat) : Prop where
  bound : ∀ i, p i → i < n
  attained : ∀ i, n = i + 1 → p i

theorem IsNext.none {p : Nat → Prop} (h : ∀ i, ¬ p i) : IsNext p 0 :=
  ⟨fun i hi => absurd hi (h i), fun _ hi => absurd hi (Nat.succ_ne_zero _).symm⟩

theorem IsNext.congr {p q : Nat → Prop} {n : Nat} (h : IsNext p n) (hpq : ∀ i, p i ↔ q i) :
    IsNext q n :=
  ⟨fun i hi => h.bound i ((hpq i).2 hi), fun i hi => (hpq i).1 (h.attained i hi)⟩

/-- A running maximum that starts at `-1`. -/
theorem IsNext.insert {p q : Nat → Prop} {m : Int} {j : Nat} (h : IsNext p (m + 1).toNat)
    (hm : -1 ≤ m) (hq : ∀ i, q i ↔ p i ∨ i = j) : IsNext q (max m j + 1).toNat := by
  constructor
  · intro i hi
    rcases (hq i).1 hi with hi | rfl
    · have hlt := h.bound i hi
      omega
    · omega
  · intro i hi
    rw [hq]
    by_cases hle : m ≤ j
    · right
      omega
    · left
      exact h.attained i (by omega)

def AddrInfo.worth (info : AddrInfo) : Int :=
  (info.chainStats.fundedTxoSum.toInt - info.chainStats.spentTxoSum.toInt) +
    (info.mempoolStats.fundedTxoSum.toInt - info.mempoolStats.spentTxoSum.toInt)

theorem AddrInfo.net_eq (info : AddrInfo) : info.net = Int64.ofInt info.worth := by
  simp only [AddrInfo.net, AddrInfo.worth, Int64.ofInt_add, Int64.ofInt_sub, Int64.ofInt_toInt]

def worth (stats : Slot → AddrInfo) (asked : List Slot) : Int :=
  (asked.map fun slot => (stats slot).worth).sum

/-- An index of a chain that was asked about and is active. -/
def SeenActive (stats : Slot → AddrInfo) (asked : List Slot) (internal : Bool) (i : Nat) : Prop :=
  (internal, i) ∈ asked ∧ (stats (internal, i)).active = true

/-- The sum and the maxima are those of the slots asked about. -/
structure Tallied (stats : Slot → AddrInfo) (s : ScanState) (asked : List Slot) : Prop where
  balance : s.balance = Int64.ofInt (worth stats asked)
  extFrom : -1 ≤ s.extMax
  chgFrom : -1 ≤ s.chgMax
  ext : IsNext (SeenActive stats asked false) (s.extMax + 1).toNat
  chg : IsNext (SeenActive stats asked true) (s.chgMax + 1).toNat

section Tally

variable {stats : Slot → AddrInfo} {s : ScanState} {asked : List Slot}

theorem worth_concat (slot : Slot) : worth stats (asked ++ [slot]) =
    worth stats asked + (stats slot).worth := by
  simp [worth]

theorem seenActive_concat (slot : Slot) (internal : Bool) (i : Nat) :
    SeenActive stats (asked ++ [slot]) internal i ↔
      SeenActive stats asked internal i ∨ ((internal, i) = slot ∧ (stats slot).active = true) := by
  simp only [SeenActive, mem_append, mem_singleton]
  constructor
  · intro h
    rcases h with ⟨hmem | rfl, hactive⟩
    · exact .inl ⟨hmem, hactive⟩
    · exact .inr ⟨rfl, hactive⟩
  · intro h
    rcases h with ⟨hmem, hactive⟩ | ⟨rfl, hactive⟩
    · exact ⟨.inl hmem, hactive⟩
    · exact ⟨.inr rfl, hactive⟩

theorem tallied_new : Tallied stats .new [] where
  balance := rfl
  extFrom := le_refl _
  chgFrom := le_refl _
  ext := IsNext.none fun _ h => List.not_mem_nil h.1
  chg := IsNext.none fun _ h => List.not_mem_nil h.1

theorem Tallied.absorbSlot {r : ScanState × Bool} (h : Tallied stats r.1 asked) (slot : Slot) :
    Tallied stats (ScanState.absorbSlot r slot (some (stats slot))).1 (asked ++ [slot]) := by
  have hbalance : r.1.balance + (stats slot).net = Int64.ofInt (worth stats (asked ++ [slot])) := by
    rw [h.balance, AddrInfo.net_eq, worth_concat, Int64.ofInt_add]
  by_cases hactive : (stats slot).active = true
  · obtain ⟨internal, j⟩ := slot
    cases internal with
    | false =>
      simp only [ScanState.absorbSlot, hactive, if_true]
      refine ⟨hbalance, le_trans h.extFrom (le_max_left _ _), h.chgFrom,
        h.ext.insert h.extFrom fun i => ?_, h.chg.congr fun i => ?_⟩
      · simp [seenActive_concat, hactive]
      · simp [seenActive_concat]
    | true =>
      simp only [ScanState.absorbSlot, hactive, if_true]
      refine ⟨hbalance, h.extFrom, le_trans h.chgFrom (le_max_left _ _), h.ext.congr fun i => ?_,
        h.chg.insert h.chgFrom fun i => ?_⟩
      · simp [seenActive_concat]
      · simp [seenActive_concat, hactive]
  · have hsame (internal : Bool) (i : Nat) :
        SeenActive stats asked internal i ↔ SeenActive stats (asked ++ [slot]) internal i := by
      simp [seenActive_concat, hactive]
    rw [Bool.not_eq_true] at hactive
    simp only [ScanState.absorbSlot, hactive]
    exact ⟨hbalance, h.extFrom, h.chgFrom, h.ext.congr (hsame false), h.chg.congr (hsame true)⟩

theorem absorbSlot_snd (r : ScanState × Bool) (slot : Slot) :
    (ScanState.absorbSlot r slot (some (stats slot))).2 = (r.2 || (stats slot).active) := by
  cases hactive : (stats slot).active with
  | false => simp [ScanState.absorbSlot, hactive]
  | true => simp [ScanState.absorbSlot, hactive]

theorem Tallied.foldl (slots : List Slot) {r : ScanState × Bool} (h : Tallied stats r.1 asked) :
    let r' := (slots.zip (slots.map fun slot => some (stats slot))).foldl
      (fun r e => ScanState.absorbSlot r e.1 e.2) r
    Tallied stats r'.1 (asked ++ slots) ∧
      r'.2 = (r.2 || slots.any fun slot => (stats slot).active) := by
  induction slots generalizing r asked with
  | nil => simpa using h
  | cons slot slots ih =>
    have hnext := ih (h.absorbSlot slot)
    rw [absorbSlot_snd, Bool.or_assoc, append_assoc] at hnext
    exact hnext

theorem Tallied.absorb (h : Tallied stats s asked) (start : Nat) (slots : List Slot) :
    let r := s.absorb start slots (slots.map fun slot => some (stats slot))
    Tallied stats r.1 (asked ++ slots) ∧ r.1.scanned = start + gap ∧
      r.2 = slots.any fun slot => (stats slot).active := by
  obtain ⟨htallied, hany⟩ := Tallied.foldl slots (r := (s, false)) h
  exact ⟨⟨htallied.balance, htallied.extFrom, htallied.chgFrom, htallied.ext, htallied.chg⟩, rfl,
    hany.trans (Bool.false_or _)⟩

end Tally

/-! ## The loop -/

theorem mem_batchSlots {start : Nat} {slot : Slot} :
    slot ∈ ScanState.batchSlots start ↔ start ≤ slot.2 ∧ slot.2 < start + gap := by
  obtain ⟨internal, i⟩ := slot
  cases internal <;> simp [ScanState.batchSlots, mem_range'_1]

theorem nodup_batchSlots (start : Nat) : (ScanState.batchSlots start).Nodup := by
  refine nodup_flatMap.2 ⟨fun i _ => by simp, ?_⟩
  refine List.Pairwise.imp (fun hne => ?_) (nodup_range' 1)
  simp [Function.onFun, hne.symm]

def Inactive (stats : Slot → AddrInfo) (i : Nat) : Prop :=
  ∀ internal, (stats (internal, i)).active = false

/-- After `k` batches: all indexes below the frontier have been asked about, each once. -/
structure Frontier (stats : Slot → AddrInfo) (s : ScanState) (asked : List Slot) (k : Nat) :
    Prop where
  tallied : Tallied stats s asked
  below : ∀ slot, slot ∈ asked ↔ slot.2 < gap * k
  once : asked.Nodup

section Loop

variable {Key : Type} {derive : Bool → Nat → Except Error Key} {address : Key → String}
variable {fetch : String → Option AddrInfo} {stats : Slot → AddrInfo} {s : ScanState}
variable {asked : List Slot} {k : Nat}

/-- The explorer answers for the address of every slot that the scan or the window may reach. -/
def Answers (derive : Bool → Nat → Except Error Key) (address : Key → String)
    (fetch : String → Option AddrInfo) (stats : Slot → AddrInfo) : Prop :=
  ∀ slot : Slot, slot.2 ≤ gap * maxBatches →
    ∃ key, derive slot.1 slot.2 = .ok key ∧ fetch (address key) = some (stats slot)

theorem Answers.batch (h : Answers derive address fetch stats) (start : Nat)
    (hstart : start + gap ≤ gap * maxBatches) :
    ∃ addrs, ScanState.batchAddresses derive address start =
        .ok (ScanState.batchSlots start, addrs) ∧
      addrs.map fetch = (ScanState.batchSlots start).map fun slot => some (stats slot) := by
  have haddress (slot : Slot) : ∃ a, slot ∈ ScanState.batchSlots start → (do
      let key ← derive slot.1 slot.2
      pure (address key)) = Except.ok a ∧ fetch a = some (stats slot) := by
    by_cases hmem : slot ∈ ScanState.batchSlots start
    · obtain ⟨key, hkey, hfetch⟩ := h slot ((mem_batchSlots.1 hmem).2.le.trans hstart)
      exact ⟨address key, fun _ => ⟨by rw [hkey]; rfl, hfetch⟩⟩
    · exact ⟨"", fun hnot => absurd hnot hmem⟩
  choose addressOf haddress using haddress
  refine ⟨(ScanState.batchSlots start).map addressOf, ?_, ?_⟩
  · have hmapM := mapM_ok_of_forall₂ (l := ScanState.batchSlots start)
      (forall₂_map_right_iff.2 (forall₂_same.2 fun slot hmem => (haddress slot hmem).1))
    rw [ScanState.batchAddresses, hmapM]
    rfl
  · rw [map_map]
    exact map_congr_left fun slot hmem => (haddress slot hmem).2

theorem Frontier.absorb (h : Frontier stats s asked k) :
    let slots := ScanState.batchSlots (gap * k)
    let r := s.absorb (gap * k) slots (slots.map fun slot => some (stats slot))
    Frontier stats r.1 (asked ++ slots) (k + 1) ∧ r.1.scanned = gap * (k + 1) ∧
      (r.2 = false → ∀ i, gap * k ≤ i → i < gap * (k + 1) → Inactive stats i) := by
  obtain ⟨htallied, hscanned, hany⟩ := h.tallied.absorb (gap * k) (ScanState.batchSlots (gap * k))
  refine ⟨⟨htallied, fun slot => ?_, ?_⟩, by rw [hscanned, Nat.mul_succ],
    fun hquiet i hlo hhi => ?_⟩
  · rw [mem_append, h.below, mem_batchSlots, Nat.mul_succ]
    omega
  · refine List.Nodup.append h.once (nodup_batchSlots _) fun slot hmem hmem' => ?_
    rw [h.below] at hmem
    rw [mem_batchSlots] at hmem'
    omega
  · intro internal
    rw [hany, any_eq_false] at hquiet
    rw [Nat.mul_succ] at hhi
    simpa using hquiet (internal, i) (mem_batchSlots.2 ⟨hlo, hhi⟩)

/-- **The loop.** It ends after some batches: after all it may make, or after a quiet one. -/
theorem scanLoop_ok (hanswers : Answers derive address fetch stats) (n : Nat)
    (hlimit : k + n + 1 ≤ maxBatches) (h : Frontier stats s asked k) :
    ∃ s' asked' m, scanLoop derive address fetch (n + 1) (gap * k) s asked = .ok (s', asked') ∧
      Frontier stats s' asked' (k + m + 1) ∧ s'.scanned = gap * (k + m + 1) ∧ m ≤ n ∧
      (m = n ∨ ∀ i, gap * (k + m) ≤ i → i < gap * (k + m + 1) → Inactive stats i) := by
  have hlast {k : Nat} (hk : k + 1 ≤ maxBatches) : gap * k + gap ≤ gap * maxBatches :=
    Nat.mul_le_mul_left gap hk
  obtain ⟨addrs, hbatch, hinfos⟩ := hanswers.batch (gap * k) (hlast (by omega))
  induction n generalizing k s asked addrs with
  | zero =>
    obtain ⟨hfrontier, hscanned, -⟩ := h.absorb
    refine ⟨_, _, 0, ?_, hfrontier, hscanned, le_refl _, .inl rfl⟩
    rw [scanLoop, hbatch, except_ok_bind]
    dsimp only
    rw [hinfos]
    split <;> rfl
  | succ n ih =>
    obtain ⟨hfrontier, hscanned, hquiet⟩ := h.absorb
    rw [scanLoop, hbatch, except_ok_bind]
    dsimp only
    rw [hinfos]
    split
    · obtain ⟨addrs', hbatch', hinfos'⟩ := hanswers.batch (gap * (k + 1)) (hlast (by omega))
      obtain ⟨s', asked', m, hloop, hfrontier', hscanned', hle, hstop⟩ :=
        ih (by omega) hfrontier addrs' hbatch' hinfos'
      have hshift : k + 1 + m = k + (m + 1) := by omega
      rw [hshift] at hfrontier' hscanned' hstop
      rw [Nat.mul_succ] at hloop
      exact ⟨s', asked', m + 1, hloop, hfrontier', hscanned', Nat.succ_le_succ hle,
        hstop.imp (congrArg Nat.succ) id⟩
    · rename_i hfalse
      exact ⟨_, _, 0, rfl, hfrontier, hscanned, Nat.zero_le _,
        .inr (hquiet (by simpa using hfalse))⟩

/-! ## What the scan sees -/

theorem toNat_balance {balance : Int64} {n : Int} (h : balance = Int64.ofInt n) (hpos : 0 ≤ n)
    (hlt : n < 2 ^ 63) : ((max balance 0).toUInt64.toNat : Int) = n := by
  have hint : balance.toInt = n := by
    rw [h, Int64.toInt_ofInt_of_le (by omega) hlt]
  have hmax : max balance 0 = balance := by
    show (if balance ≤ 0 then 0 else balance) = balance
    split
    · rename_i hle
      rw [Int64.le_iff_toInt_le, Int64.toInt_zero] at hle
      exact Int64.toInt_inj.1 (by rw [Int64.toInt_zero]; omega)
    · rfl
  have hle : 0 ≤ balance := by
    rw [Int64.le_iff_toInt_le, Int64.toInt_zero, hint]
    exact hpos
  rw [hmax, Int64.toNat_toUInt64_of_le hle, Int64.toNatClampNeg, hint]
  exact Int.toNat_of_nonneg hpos

theorem mem_windowSlots {scanLimit changeNext : Nat} {slot : Slot} :
    slot ∈ windowSlots scanLimit changeNext ↔ slot.2 < max scanLimit (changeNext + 1) := by
  obtain ⟨internal, i⟩ := slot
  cases internal <;> simp [windowSlots]

theorem nodup_windowSlots (scanLimit changeNext : Nat) :
    (windowSlots scanLimit changeNext).Nodup := by
  refine nodup_flatMap.2 ⟨fun internal _ => ?_, ?_⟩
  · exact nodup_range.map fun i j h => (Prod.mk.inj h).2
  · simp [Function.onFun, List.Disjoint]

/-- What a scan reports and what the window of its result covers, for the slots it asked about. -/
structure Sees (derive : Bool → Nat → Except Error Key) (stats : Slot → AddrInfo) (scan : Scan)
    (asked : List Slot) : Prop where
  queries : ∀ internal i, i < gap * maxBatches →
    Reachable (fun j => ¬ Inactive stats j) gap i → (internal, i) ∈ asked
  once : asked.Nodup
  externalNext : IsNext (SeenActive stats asked false) scan.externalNext
  changeNext : IsNext (SeenActive stats asked true) scan.changeNext
  balance : 0 ≤ worth stats asked → worth stats asked < 2 ^ 63 →
    (scan.balanceSats.toNat : Int) = worth stats asked
  window : ∃ slots keys, windowKeys derive scan.scanLimit scan.changeNext = .ok keys ∧
    List.Forall₂ (fun slot key => derive slot.1 slot.2 = .ok key) slots keys ∧ slots.Nodup ∧
    (∀ slot ∈ asked, slot ∈ slots) ∧ ∀ internal, (internal, scan.changeNext) ∈ slots

/-- **The scan and the window see the same coins.** -/
theorem scan_sees (hanswers : Answers derive address fetch stats) :
    ∃ result asked, scan derive address fetch = .ok (result, asked) ∧
      Sees derive stats result asked := by
  have hstart : Frontier stats .new [] 0 := ⟨tallied_new, by simp, nodup_nil⟩
  obtain ⟨s, asked, m, hloop, hfrontier, hscanned, hm, hstop⟩ :=
    scanLoop_ok hanswers (maxBatches - 1) (by decide) hstart
  rw [Nat.zero_add] at hfrontier hscanned hstop
  refine ⟨s.finish, asked, ?_, ?_⟩
  · rw [scan]
    exact except_bind_ok_iff.2 ⟨_, hloop, rfl⟩
  refine ⟨fun internal i hi hreach => ?_, hfrontier.once, hfrontier.tallied.ext,
    hfrontier.tallied.chg, toNat_balance hfrontier.tallied.balance, ?_⟩
  · rw [hfrontier.below]
    by_contra hge
    -- the last batch lies below `i`, so it cannot have been quiet
    rcases hstop with rfl | hquiet
    · exact hge hi
    · obtain ⟨j, hlo, hhi, hactive⟩ := hreach (gap * m) (by rw [← Nat.mul_succ]; exact not_lt.1 hge)
      exact hactive (hquiet j hlo hhi)
  · have hkeys : ∀ slot ∈ windowSlots s.finish.scanLimit s.finish.changeNext,
        ∃ key, derive slot.1 slot.2 = .ok key := by
      intro slot hslot
      have hlast : gap * (m + 1) ≤ gap * maxBatches := Nat.mul_le_mul_left gap
        (Nat.succ_le_succ hm)
      have hnext : s.finish.changeNext ≤ gap * (m + 1) := by
        cases hchange : s.finish.changeNext with
        | zero => exact Nat.zero_le _
        | succ i => exact (hfrontier.below _).1 (hfrontier.tallied.chg.attained i hchange).1
      have hlimit : s.finish.scanLimit = gap * (m + 1) := hscanned
      rw [mem_windowSlots, hlimit] at hslot
      obtain ⟨key, hkey, -⟩ := hanswers slot (by omega)
      exact ⟨key, hkey⟩
    obtain ⟨keys, hok⟩ := mapM_ok_of_forall hkeys
    refine ⟨_, keys, hok, mapM_ok_forall₂ hok, nodup_windowSlots _ _, fun slot hmem => ?_,
      fun internal => ?_⟩
    · have hbelow := (hfrontier.below slot).1 hmem
      rw [mem_windowSlots]
      show slot.2 < max s.scanned _
      rw [hscanned]
      omega
    · rw [mem_windowSlots]
      omega

end Loop

/-! ## A wallet that reaches the limit -/

namespace EveryIndex

def busy : AddrInfo := ⟨⟨0, 0, 1⟩, ⟨0, 0, 0⟩⟩

def idle : AddrInfo := ⟨⟨0, 0, 0⟩, ⟨0, 0, 0⟩⟩

def stats (slot : Slot) : AddrInfo := if slot.2 < gap * maxBatches then busy else idle

def derive (internal : Bool) (i : Nat) : Except Error Slot := .ok (internal, i)

def address (slot : Slot) : String :=
  String.ofList (List.replicate slot.2 (if slot.1 then 'c' else 'r'))

def fetch (a : String) : Option AddrInfo :=
  some (if a.length < gap * maxBatches then busy else idle)

theorem answers : Answers derive address fetch stats := by
  intro slot _
  refine ⟨slot, rfl, ?_⟩
  simp [fetch, address, stats]

theorem active_iff (slot : Slot) : (stats slot).active = true ↔ slot.2 < gap * maxBatches := by
  by_cases hlt : slot.2 < gap * maxBatches
  · simp only [stats, hlt, iff_true]
    decide
  · simp only [stats, hlt, iff_false]
    decide

def rich : AddrInfo := ⟨⟨2 ^ 62, 0, 1⟩, ⟨0, 0, 0⟩⟩

def richStats (slot : Slot) : AddrInfo := if slot.2 = 0 then rich else idle

def richFetch (a : String) : Option AddrInfo := some (if a = "" then rich else idle)

theorem richAnswers : Answers derive address richFetch richStats := by
  intro slot _
  refine ⟨slot, rfl, ?_⟩
  obtain ⟨internal, i⟩ := slot
  cases i <;> simp [richFetch, address, richStats]

/-- No quiet indexes separate the first index past the limit from the start, and the scan does not
ask about it. And two addresses with `2 ^ 62` each make a balance of zero. -/
theorem limit_not_asked : (Answers derive address richFetch richStats ∧
      (scan derive address richFetch).toOption.map
        (fun r => (r.1.balanceSats, worth richStats r.2)) = some (0, 2 ^ 63)) ∧
    Answers derive address fetch stats ∧
    (∀ slot, (stats slot).active = true → slot.2 < gap * maxBatches) ∧
    Reachable (fun j => ¬ Inactive stats j) gap (gap * maxBatches) ∧
    ∃ result asked, scan derive address fetch = .ok (result, asked) ∧
      (false, gap * maxBatches) ∉ asked := by
  refine ⟨⟨richAnswers, by decide +kernel⟩, answers, fun slot => (active_iff slot).1,
    fun start hstart => ?_, ?_⟩
  · have hlt : start < start + gap := Nat.lt_add_of_pos_right (by decide)
    refine ⟨start, le_refl _, hlt, fun hquiet => ?_⟩
    have hactive := (active_iff (false, start)).2 (Nat.lt_of_lt_of_le hlt hstart)
    rw [hquiet false] at hactive
    cases hactive
  · have hstart : Frontier stats .new [] 0 := ⟨tallied_new, by simp, nodup_nil⟩
    obtain ⟨s, asked, m, hloop, hfrontier, -, hle, -⟩ :=
      scanLoop_ok answers (maxBatches - 1) (by decide) hstart
    refine ⟨s.finish, asked, except_bind_ok_iff.2 ⟨_, hloop, rfl⟩, ?_⟩
    have hpos : 0 < maxBatches := by decide
    rw [hfrontier.below, not_lt]
    exact Nat.mul_le_mul_left gap (by omega)

theorem scan_sees_everyIndex : ∃ result asked,
    scan derive address fetch = .ok (result, asked) ∧ Sees derive stats result asked :=
  scan_sees answers

end EveryIndex

end Swk.BtcScan
