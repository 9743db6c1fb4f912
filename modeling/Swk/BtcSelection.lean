import Swk.Descriptor
import Swk.LargestFirst
import Swk.MachineInt

/-!
# Bitcoin coin selection

How the Bitcoin side of the wallet picks coins for a payment and settles fee and change, following
`build_signed_tx` of `btc/core.rs`. Coins are taken largest first until they cover the amount and
the fee of a transaction with change; change that is dust goes to the fee.

The fee is an arbitrary function of the numbers of inputs and outputs, cast to a `u64` as the code
casts it. The test for enough is made with a saturating sum, and the change is then computed with
plain subtractions. The two agree unless the coins add up to the largest `u64`: there a sum that
saturates counts as covered, and the subtraction wraps.
-/

namespace Swk.BtcSelection

open List

/-- A coin; the keys that sign for it are not needed to select it. -/
structure Utxo where
  outpoint : OutPoint
  value : UInt64
deriving DecidableEq

def dust : UInt64 := 294

/-- A float cast to `u64`: above the largest, the largest. -/
def asU64 (n : Nat) : UInt64 := UInt64.ofNat (min n (2 ^ 64 - 1))

/-- What the selection leaves the assembly of the transaction. -/
structure Selection where
  selected : List Utxo
  withChange : Bool
  change : UInt64
  fee : UInt64
deriving DecidableEq

def Selection.outputs (s : Selection) : Nat := if s.withChange then 2 else 1

section Select

variable (feeFor : Nat → Nat → Nat) (amountSats : UInt64)

/-- The amount and the fee for a number of inputs and outputs, as the code adds them. -/
def required (nin nout : Nat) : UInt64 := saturatingAdd64 amountSats (asU64 (feeFor nin nout))

def selectLoop : List Utxo → List Utxo → UInt64 → List Utxo × UInt64
  | [], sel, inSum => (sel, inSum)
  | u :: utxos, sel, inSum =>
    let sel := sel ++ [u]
    let inSum := inSum + u.value
    if required feeFor amountSats sel.length 2 ≤ inSum then (sel, inSum)
    else selectLoop utxos sel inSum

def settle (sel : List Utxo) (inSum : UInt64) : Except Error Selection :=
  let fee := asU64 (feeFor sel.length 2)
  if inSum < required feeFor amountSats sel.length 2 then
    .error (.generic "insufficient BTC for amount + fee")
  else
    let change := inSum - amountSats - fee
    if change ≤ dust then
      if inSum < required feeFor amountSats sel.length 1 then
        .error (.generic "insufficient BTC for amount + fee")
      else .ok ⟨sel, false, 0, inSum - amountSats⟩
    else .ok ⟨sel, true, change, fee⟩

/-- The selection of `build_signed_tx`. -/
def selectCoins (utxos : List Utxo) : Except Error Selection :=
  if amountSats = 0 then .error (.generic "enter an amount greater than zero")
  else if utxos.isEmpty then
    .error (.generic "no spendable BTC; the testnet4 balance is empty")
  else
    -- largest first
    let sorted := utxos.insertionSort fun a b => b.value ≤ a.value
    let (sel, inSum) := selectLoop feeFor amountSats sorted [] 0
    settle feeFor amountSats sel inSum

end Select

/-! ## The loop -/

def total (l : List Utxo) : Nat := LargestFirst.total (fun u : Utxo => u.value.toNat) l

@[simp] theorem total_nil : total [] = 0 := rfl

@[simp] theorem total_cons (u : Utxo) (l : List Utxo) : total (u :: l) = u.value.toNat + total l :=
  LargestFirst.total_cons _ u l

section Loop

variable {feeFor : Nat → Nat → Nat} {amountSats : UInt64}

theorem toNat_asU64 (n : Nat) : (asU64 n).toNat = min n (2 ^ 64 - 1) := by
  rw [asU64, UInt64.toNat_ofNat']
  omega

theorem toNat_required (nin nout : Nat) : (required feeFor amountSats nin nout).toNat =
      min (amountSats.toNat + feeFor nin nout) (2 ^ 64 - 1) := by
  rw [required, toNat_saturatingAdd64, toNat_asU64]
  omega

variable (feeFor amountSats) in
theorem selectLoop_spec (l sel : List Utxo) (inSum : UInt64)
    (hfits : inSum.toNat + total l < 2 ^ 64) :
    ∃ n ≤ l.length, (selectLoop feeFor amountSats l sel inSum).1 = sel ++ l.take n ∧
      (selectLoop feeFor amountSats l sel inSum).2.toNat = inSum.toNat + total (l.take n) ∧
      (n = l.length ∨ (required feeFor amountSats (sel.length + n) 2).toNat ≤
        inSum.toNat + total (l.take n)) ∧
      ∀ m, 0 < m → m < n → ¬ (required feeFor amountSats (sel.length + m) 2).toNat ≤
        inSum.toNat + total (l.take m) := by
  induction l generalizing sel inSum with
  | nil => exact ⟨0, by simp [selectLoop]⟩
  | cons u l ih =>
    rw [total_cons] at hfits
    have hsum : (inSum + u.value).toNat = inSum.toNat + u.value.toNat := by
      rw [UInt64.toNat_add, Nat.mod_eq_of_lt (by omega)]
    have hlen : (sel ++ [u]).length = sel.length + 1 := by simp
    rw [selectLoop]
    by_cases henough : required feeFor amountSats (sel ++ [u]).length 2 ≤ inSum + u.value
    · refine ⟨1, by simp, ?_⟩
      simp only [if_pos henough]
      rw [UInt64.le_iff_toNat_le, hsum, hlen] at henough
      refine ⟨by simp, by simp [hsum], .inr (by simpa using henough), ?_⟩
      intro m hpos hlt
      omega
    · simp only [if_neg henough]
      obtain ⟨n, hn, hsel, hin, hend, hfirst⟩ := ih (sel ++ [u]) (inSum + u.value) (by omega)
      rw [hlen, hsum] at hend
      rw [hsum] at hin
      simp only [hlen, hsum] at hfirst
      refine ⟨n + 1, by simpa using hn, ?_, ?_, ?_, ?_⟩
      · rw [hsel, take_succ_cons, append_assoc, singleton_append]
      · rw [hin, take_succ_cons, total_cons]
        omega
      · refine hend.imp (fun h => by simp [h]) fun h => ?_
        rw [take_succ_cons, total_cons]
        rw [show sel.length + (n + 1) = sel.length + 1 + n by omega]
        omega
      · intro m hpos hlt
        rw [UInt64.le_iff_toNat_le, hsum, hlen] at henough
        cases m with
        | zero => omega
        | succ m =>
          rw [take_succ_cons, total_cons,
            show sel.length + (m + 1) = sel.length + 1 + m by omega]
          by_cases hm : m = 0
          · subst hm
            simpa using henough
          · have := hfirst m (by omega) (by omega)
            omega

end Loop

/-! ## Fee and change -/

/-- A selection is exact: the coins are coins of the wallet and cover the amount and the fee of a
transaction with change, as few as can; they are worth the amount, the change and the fee
together; change is not dust; and the fee is enough for the outputs there are. -/
structure Exact (feeFor : Nat → Nat → Nat) (amountSats : UInt64) (utxos : List Utxo)
    (s : Selection) : Prop where
  subset : s.selected.Subperm utxos
  covers : amountSats.toNat + feeFor s.selected.length 2 ≤ total s.selected
  least : ∀ S : List Utxo, S.Subperm utxos → amountSats.toNat + feeFor S.length 2 ≤ total S →
    s.selected.length ≤ S.length
  balance : total s.selected = amountSats.toNat + s.change.toNat + s.fee.toNat
  change : s.withChange = false ∧ s.change = 0 ∨ s.withChange = true ∧ 294 < s.change.toNat
  fee : feeFor s.selected.length s.outputs ≤ s.fee.toNat

/-- Some coins cover the amount and the fee of a transaction with change. -/
def Fundable (feeFor : Nat → Nat → Nat) (amountSats : UInt64) (utxos : List Utxo) : Prop :=
  ∃ S : List Utxo, S.Subperm utxos ∧ amountSats.toNat + feeFor S.length 2 ≤ total S

section Settle

variable {feeFor : Nat → Nat → Nat} {amountSats : UInt64} {sel : List Utxo} {inSum : UInt64}

theorem settle_ok (hout : feeFor sel.length 1 ≤ feeFor sel.length 2)
    (h : amountSats.toNat + feeFor sel.length 2 ≤ inSum.toNat) :
    ∃ s, settle feeFor amountSats sel inSum = .ok s ∧ s.selected = sel ∧
      inSum.toNat = amountSats.toNat + s.change.toNat + s.fee.toNat ∧
      (s.withChange = false ∧ s.change = 0 ∨ s.withChange = true ∧ 294 < s.change.toNat) ∧
      feeFor sel.length s.outputs ≤ s.fee.toNat := by
  have hmax : inSum.toNat < 2 ^ 64 := inSum.toNat_lt
  have hcover : ∀ nout, feeFor sel.length nout ≤ feeFor sel.length 2 →
      ¬ inSum < required feeFor amountSats sel.length nout := by
    intro nout hle
    rw [UInt64.lt_iff_toNat_lt, toNat_required]
    omega
  have hfee : (asU64 (feeFor sel.length 2)).toNat = feeFor sel.length 2 := by
    rw [toNat_asU64]
    omega
  have hrest : (inSum - amountSats).toNat = inSum.toNat - amountSats.toNat :=
    UInt64.toNat_sub_of_le _ _ (UInt64.le_iff_toNat_le.2 (by omega))
  have hchange : (inSum - amountSats - asU64 (feeFor sel.length 2)).toNat =
      inSum.toNat - amountSats.toNat - feeFor sel.length 2 := by
    rw [UInt64.toNat_sub_of_le _ _ (UInt64.le_iff_toNat_le.2 (by omega)), hrest, hfee]
  unfold settle
  dsimp only
  rw [if_neg (hcover 2 le_rfl)]
  by_cases hdust : inSum - amountSats - asU64 (feeFor sel.length 2) ≤ dust
  · rw [if_pos hdust, if_neg (hcover 1 hout)]
    refine ⟨_, rfl, rfl, ?_, .inl ⟨rfl, rfl⟩, ?_⟩
    · simp only [UInt64.toNat_zero, hrest]
      omega
    · simp only [Selection.outputs, hrest, Bool.false_eq_true, if_false]
      omega
  · rw [if_neg hdust]
    rw [UInt64.le_iff_toNat_le, hchange, show dust.toNat = 294 by decide] at hdust
    refine ⟨_, rfl, rfl, ?_, .inr ⟨rfl, ?_⟩, ?_⟩
    · simp only [hchange, hfee]
      omega
    · rw [hchange]
      omega
    · simp only [Selection.outputs, hfee, if_true, le_refl]

theorem settle_error (h : inSum.toNat < (required feeFor amountSats sel.length 2).toNat) :
    ∃ e, settle feeFor amountSats sel inSum = .error e := by
  unfold settle
  dsimp only
  rw [if_pos (UInt64.lt_iff_toNat_lt.2 h)]
  exact ⟨_, rfl⟩

/-- No sum is above the largest `u64`, so coins worth that much pass every test. -/
theorem settle_saturated (h : inSum.toNat = 2 ^ 64 - 1) :
    ∃ s, settle feeFor amountSats sel inSum = .ok s := by
  have hpass : ∀ nout, ¬ inSum < required feeFor amountSats sel.length nout := by
    intro nout
    rw [UInt64.lt_iff_toNat_lt, toNat_required]
    omega
  unfold settle
  dsimp only
  rw [if_neg (hpass 2)]
  by_cases hdust : inSum - amountSats - asU64 (feeFor sel.length 2) ≤ dust
  · rw [if_pos hdust, if_neg (hpass 1)]
    exact ⟨_, rfl⟩
  · rw [if_neg hdust]
    exact ⟨_, rfl⟩

end Settle

/-! ## The selection -/

def sorted (utxos : List Utxo) : List Utxo := utxos.insertionSort fun a b => b.value ≤ a.value

section Sorted

variable (utxos : List Utxo)

theorem sorted_perm : (sorted utxos).Perm utxos := List.perm_insertionSort _ _

theorem sorted_pairwise : (sorted utxos).Pairwise fun a b => b.value.toNat ≤ a.value.toNat := by
  have : Std.Total fun a b : Utxo => b.value ≤ a.value := ⟨fun a b => UInt64.le_total _ _⟩
  have : IsTrans Utxo fun a b : Utxo => b.value ≤ a.value :=
    ⟨fun _ _ _ hab hbc => UInt64.le_trans hbc hab⟩
  exact (pairwise_insertionSort (fun a b : Utxo => b.value ≤ a.value) utxos).imp
    UInt64.le_iff_toNat_le.1

theorem total_sorted : total (sorted utxos) = total utxos :=
  LargestFirst.total_perm (sorted_perm utxos)

theorem total_take_sorted_le (n : Nat) : total ((sorted utxos).take n) ≤ total utxos :=
  (LargestFirst.total_sublist_le (take_sublist _ _)).trans_eq (total_sorted utxos)

theorem fundable_iff (feeFor : Nat → Nat → Nat) (amountSats : UInt64) :
    Fundable feeFor amountSats utxos ↔ ∃ n ≤ (sorted utxos).length,
      amountSats.toNat + feeFor n 2 ≤ total ((sorted utxos).take n) := by
  refine Iff.trans ?_ (LargestFirst.exists_choice_iff (sorted_pairwise utxos)
    fun n => amountSats.toNat + feeFor n 2)
  simp only [Fundable, (sorted_perm utxos).subperm_left]
  exact Iff.rfl

end Sorted

section Select

variable {feeFor : Nat → Nat → Nat} {amountSats : UInt64} {utxos : List Utxo}

variable (feeFor) in
theorem selectCoins_spec (hfits : total utxos < 2 ^ 64) (hamount : amountSats ≠ 0)
    (hutxos : utxos ≠ []) : ∃ n ≤ (sorted utxos).length, ∃ inSum : UInt64,
      selectCoins feeFor amountSats utxos = settle feeFor amountSats ((sorted utxos).take n) inSum ∧
      inSum.toNat = total ((sorted utxos).take n) ∧
      (n = (sorted utxos).length ∨
        (required feeFor amountSats n 2).toNat ≤ total ((sorted utxos).take n)) ∧
      ∀ m < n, ¬ (required feeFor amountSats m 2).toNat ≤ total ((sorted utxos).take m) := by
  have hpos : 0 < amountSats.toNat := by
    rw [Nat.pos_iff_ne_zero, Ne, ← UInt64.toNat_zero, UInt64.toNat_inj]
    exact hamount
  have hsorted : (0 : UInt64).toNat + total (sorted utxos) < 2 ^ 64 := by
    rw [total_sorted, UInt64.toNat_zero]
    omega
  obtain ⟨n, hn, hsel, hin, hend, hfirst⟩ :=
    selectLoop_spec feeFor amountSats (sorted utxos) [] 0 hsorted
  simp only [nil_append, length_nil, Nat.zero_add, UInt64.toNat_zero] at hsel hin hend hfirst
  refine ⟨n, hn, _, ?_, hin, hend, ?_⟩
  · have hempty : utxos.isEmpty = false := isEmpty_eq_false_iff.2 hutxos
    rw [selectCoins, if_neg hamount, hempty, ← hsel]
    rfl
  · intro m hm
    -- without a coin the amount is not covered
    cases m with
    | zero =>
      rw [toNat_required, take_zero, total_nil]
      omega
    | succ m => exact hfirst (m + 1) (Nat.succ_pos m) hm

/-- Where the tests of the code and the exact ones agree: the coins do not add up to the largest
`u64`, or some of them are enough. A fee that grows with the inputs cannot be covered by more
coins after it was too large for a `u64`. -/
theorem covers_of_first (hin : ∀ nout, Monotone fun nin => feeFor nin nout)
    (hfits : total utxos < 2 ^ 64)
    (hgood : total utxos ≠ 2 ^ 64 - 1 ∨ Fundable feeFor amountSats utxos) {n : Nat}
    (hpass : (required feeFor amountSats n 2).toNat ≤ total ((sorted utxos).take n))
    (hfirst : ∀ m < n, ¬ (required feeFor amountSats m 2).toNat ≤ total ((sorted utxos).take m)) :
    amountSats.toNat + feeFor n 2 ≤ total ((sorted utxos).take n) := by
  have hle := total_take_sorted_le utxos n
  rw [toNat_required] at hpass
  obtain hne | hfund := hgood
  · omega
  · obtain ⟨j, -, hj⟩ := (fundable_iff utxos feeFor amountSats).1 hfund
    have hjle := total_take_sorted_le utxos j
    -- the funded prefix passes the test too, so it is not shorter
    have hnj : n ≤ j := by
      by_contra hlt
      refine hfirst j (by omega) ?_
      rw [toNat_required]
      omega
    have hmono : feeFor n 2 ≤ feeFor j 2 := hin 2 hnj
    omega

/-- **Selection.** For coins that add up to a `u64` and a fee that does not fall with inputs or
outputs: the selection succeeds exactly if some coins cover amount and fee, and what it selects is
exact, unless the coins add up to the largest `u64` and are not enough. -/
theorem selectCoins_exact_iff (feeFor : Nat → Nat → Nat)
    (hin : ∀ nout, Monotone fun nin => feeFor nin nout) (hout : ∀ nin, Monotone (feeFor nin))
    (utxos : List Utxo) (hfits : total utxos < 2 ^ 64) (amountSats : UInt64)
    (hamount : 0 < amountSats.toNat) : (((∃ s, selectCoins feeFor amountSats utxos = .ok s) ↔
        Fundable feeFor amountSats utxos) ∧
      ∀ s, selectCoins feeFor amountSats utxos = .ok s → Exact feeFor amountSats utxos s) ↔
      (total utxos ≠ 2 ^ 64 - 1 ∨ Fundable feeFor amountSats utxos) := by
  have hne : amountSats ≠ 0 := by
    rintro rfl
    exact absurd hamount (by simp)
  by_cases hutxos : utxos = []
  · subst hutxos
    have hempty : selectCoins feeFor amountSats [] =
        .error (.generic "no spendable BTC; the testnet4 balance is empty") := by
      rw [selectCoins, if_neg hne]
      rfl
    have hnone : ¬ Fundable feeFor amountSats [] := by
      rintro ⟨S, hsub, hcover⟩
      rw [subperm_nil.1 hsub, total_nil] at hcover
      omega
    simp [hempty, hnone]
  · obtain ⟨n, hn, inSum, hselect, hsum, hend, hfirst⟩ := selectCoins_spec feeFor hfits hne hutxos
    rw [hselect]
    have hlen : ((sorted utxos).take n).length = n := by
      rw [length_take, Nat.min_eq_left hn]
    -- what passes the exact test passes the test of the code
    have hexact : ∀ m, amountSats.toNat + feeFor m 2 ≤ total ((sorted utxos).take m) →
        (required feeFor amountSats m 2).toNat ≤ total ((sorted utxos).take m) := by
      intro m hm
      rw [toNat_required]
      omega
    refine ⟨fun h => ?_, fun hgood => ?_⟩
    · -- coins worth the largest `u64` always pass, so they had better be enough
      by_contra hbad
      obtain ⟨hmax, hnone⟩ := not_or.1 hbad
      rw [not_not] at hmax
      refine hnone (h.1.1 (settle_saturated ?_))
      rw [hsum]
      obtain rfl | hpass := hend
      · rw [take_length, total_sorted, hmax]
      · have hle := total_take_sorted_le utxos n
        have hmore : ¬ amountSats.toNat + feeFor n 2 ≤ total ((sorted utxos).take n) :=
          fun hcover => hnone ((fundable_iff utxos feeFor amountSats).2 ⟨n, hn, hcover⟩)
        rw [toNat_required] at hpass
        omega
    · by_cases hpass : (required feeFor amountSats n 2).toNat ≤ total ((sorted utxos).take n)
      · have hcover := covers_of_first hin hfits hgood hpass hfirst
        have hpaid : amountSats.toNat + feeFor ((sorted utxos).take n).length 2 ≤ inSum.toNat := by
          rw [hlen, hsum]
          exact hcover
        obtain ⟨s, hs, hsel, hbalance, hchange, hfee⟩ := settle_ok (hout _ (by decide)) hpaid
        refine ⟨iff_of_true ⟨s, hs⟩ ((fundable_iff utxos feeFor amountSats).2 ⟨n, hn, hcover⟩), ?_⟩
        intro s' hs'
        cases hs.symm.trans hs'
        exact {
          subset := by
            rw [hsel]
            exact (take_sublist _ _).subperm.trans (sorted_perm utxos).subperm
          covers := by rwa [hsel, hlen]
          least := by
            intro S hsub hneed
            rw [hsel, hlen]
            exact LargestFirst.length_le_of_first (sorted_pairwise utxos)
              (fun m hm hneed => hfirst m hm (hexact m hneed))
              (hsub.trans (sorted_perm utxos).symm.subperm) hneed
          balance := by rw [hsel, ← hsum, hbalance]
          change := hchange
          fee := by rwa [hsel] }
      · -- everything was taken and is not enough
        obtain rfl := hend.resolve_right hpass
        have hshort : inSum.toNat < (required feeFor amountSats
            ((sorted utxos).take (sorted utxos).length).length 2).toNat := by
          rw [hlen, hsum]
          exact Nat.lt_of_not_le hpass
        obtain ⟨e, he⟩ := settle_error hshort
        have hnone : ¬ Fundable feeFor amountSats utxos := by
          intro hfund
          obtain ⟨j, hj, hcover⟩ := (fundable_iff utxos feeFor amountSats).1 hfund
          obtain hlt | rfl := Nat.lt_or_eq_of_le hj
          · exact hfirst j hlt (hexact j hcover)
          · exact hpass (hexact _ hcover)
        have hfails : ∀ s, settle feeFor amountSats
            ((sorted utxos).take (sorted utxos).length) inSum ≠ .ok s := by
          intro s hs
          cases he.symm.trans hs
        exact ⟨iff_of_false (not_exists.2 hfails) hnone, fun s hs => absurd hs (hfails s)⟩

end Select

namespace Sample

def oneSat (nin nout : Nat) : Nat := 11 + 68 * nin + 31 * nout

theorem oneSat_inputs (nout : Nat) : Monotone fun nin => oneSat nin nout := by
  intro a b hab
  dsimp only [oneSat]
  omega

theorem oneSat_outputs (nin : Nat) : Monotone (oneSat nin) := by
  intro a b hab
  dsimp only [oneSat]
  omega

def twoCoins : List Utxo := [⟨⟨1, 0⟩, 700⟩, ⟨⟨2, 0⟩, 5000⟩]

def oneHuge : List Utxo := [⟨⟨1, 0⟩, UInt64.ofNat (2 ^ 64 - 1)⟩]

end Sample

open Sample in
theorem selectCoins_exact_twoCoins :
    selectCoins oneSat 1000 twoCoins = .ok ⟨[⟨⟨2, 0⟩, 5000⟩], true, 3859, 141⟩ ∧
      ((∃ s, selectCoins oneSat 1000 twoCoins = .ok s) ↔ Fundable oneSat 1000 twoCoins) ∧
      ∀ s, selectCoins oneSat 1000 twoCoins = .ok s → Exact oneSat 1000 twoCoins s :=
  ⟨by rfl, (selectCoins_exact_iff oneSat oneSat_inputs oneSat_outputs twoCoins (by decide) 1000
    (by decide)).2 (.inl (by decide))⟩

open Sample in
/-- A payment of the whole coin leaves nothing for the fee, and yet gets a change output worth
almost as much again. -/
theorem selectCoins_wraps : selectCoins oneSat (UInt64.ofNat (2 ^ 64 - 1)) oneHuge =
        .ok ⟨oneHuge, true, UInt64.ofNat (2 ^ 64 - 141), 141⟩ ∧
      ¬ Fundable oneSat (UInt64.ofNat (2 ^ 64 - 1)) oneHuge := by
  refine ⟨by rfl, ?_⟩
  rintro ⟨S, hsub, hcover⟩
  have hle : total S ≤ total oneHuge := LargestFirst.total_subperm_le hsub
  have htotal : total oneHuge = 2 ^ 64 - 1 := by decide
  have hamount : (UInt64.ofNat (2 ^ 64 - 1)).toNat = 2 ^ 64 - 1 := by decide
  rw [hamount, oneSat] at hcover
  omega

end Swk.BtcSelection
