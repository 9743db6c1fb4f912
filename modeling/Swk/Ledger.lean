import Mathlib.Algebra.BigOperators.Group.Finset.Basic
import Mathlib.Data.Set.Basic

/-!
# Unspent outputs of an unordered ledger

A ledger is a set `H` of transactions, given by which outputs each spends. Of the outputs one
owns, `B`, those whose transaction is in the ledger and that no transaction of the ledger spends
are unspent. Transactions come and go in no particular order: a parent may be listed after its
child, and two transactions may spend the same output.

`refresh` is the obvious way to keep the unspent set current when transactions `N` are listed and
`D` deleted, without looking at the rest of the ledger. It is not always right: an output that is
put back may be spent by a transaction that stays (`Stale`). `refresh_eq_iff` says that this is
the only way it goes wrong.

Where outputs have values, what all transactions add up to is what is unspent (`sum_net`).
-/

namespace Swk.Ledger

open List

variable {T O : Type} (txOf : O → T) (spends : T → O → Prop)

/-- The owned outputs of the ledger that nothing in it spends. -/
def unspent (H : Set T) (B : Set O) : Set O :=
  {o | o ∈ B ∧ txOf o ∈ H ∧ ∀ t ∈ H, ¬ spends t o}

/-- Add the owned outputs of `N` and the owned inputs of `D`, then take away the inputs of `N` and
the outputs of `D`. -/
def refresh (U B : Set O) (N D : Set T) : Set O :=
  {o | (o ∈ U ∨ o ∈ B ∧ (txOf o ∈ N ∨ ∃ t ∈ D, spends t o)) ∧
    (∀ t ∈ N, ¬ spends t o) ∧ txOf o ∉ D}

/-- An output that `refresh` puts in although it does not belong there: its transaction is not in
the ledger, or a transaction that was there and stays spends it. -/
def Stale (H : Set T) (B : Set O) (N D : Set T) (o : O) : Prop :=
  o ∈ B ∧ (txOf o ∈ N ∨ ∃ t ∈ D, spends t o) ∧ (∀ t ∈ N, ¬ spends t o) ∧ txOf o ∉ D ∧
    ((txOf o ∉ N ∧ txOf o ∉ H) ∨ ∃ t ∈ H, t ∉ D ∧ spends t o)

variable {txOf spends} {H N D : Set T} {B B' : Set O}

theorem refresh_subset (hB : B ⊆ B') (hno : ∀ o, ¬ Stale txOf spends H B' N D o) :
    refresh txOf spends (unspent txOf spends H B) B' N D ⊆ unspent txOf spends (H \ D ∪ N) B' := by
  rintro o ⟨hin, hN, hD⟩
  rcases hin with ⟨hoB, htx, hH⟩ | ⟨hoB, hput⟩
  · -- it was unspent before: only a listed transaction could spend it
    refine ⟨hB hoB, .inl ⟨htx, hD⟩, ?_⟩
    rintro t (⟨ht, -⟩ | ht)
    · exact hH t ht
    · exact hN t ht
  · -- it was put in: it is not stale
    have hns := hno o
    have htx : txOf o ∈ N ∨ txOf o ∈ H := by
      by_contra hnone
      rw [not_or] at hnone
      exact hns ⟨hoB, hput, hN, hD, .inl hnone⟩
    refine ⟨hoB, ?_, ?_⟩
    · rcases htx with h | h
      · exact .inr h
      · exact .inl ⟨h, hD⟩
    · rintro t (⟨ht, htD⟩ | ht) hsp
      · exact hns ⟨hoB, hput, hN, hD, .inr ⟨t, ht, htD, hsp⟩⟩
      · exact hN t ht hsp

theorem unspent_subset_refresh (hdisj : ∀ t ∈ N, t ∉ D) (hnew : ∀ o ∈ B', o ∉ B → txOf o ∈ N) :
    unspent txOf spends (H \ D ∪ N) B' ⊆ refresh txOf spends (unspent txOf spends H B) B' N D := by
  rintro o ⟨hoB, htx, hH⟩
  refine ⟨?_, fun t ht => hH t (.inr ht), ?_⟩
  · by_cases hoN : txOf o ∈ N
    · exact .inr ⟨hoB, .inl hoN⟩
    · have hoB₀ : o ∈ B := by
        by_contra hc
        exact hoN (hnew o hoB hc)
      have htxH : txOf o ∈ H := (htx.resolve_right hoN).1
      by_cases hspent : ∃ t ∈ H, spends t o
      · -- whatever spent it is gone, so it is put back
        obtain ⟨t, ht, hsp⟩ := hspent
        have htD : t ∈ D := by
          by_contra hc
          exact hH t (.inl ⟨ht, hc⟩) hsp
        exact .inr ⟨hoB, .inr ⟨t, htD, hsp⟩⟩
      · exact .inl ⟨hoB₀, htxH, fun t ht hsp => hspent ⟨t, ht, hsp⟩⟩
  · rcases htx with ⟨-, hD⟩ | hN
    · exact hD
    · exact hdisj _ hN

/-- **Refreshing is exact as long as nothing stale is put in**, and only then. -/
theorem refresh_eq_iff (hdisj : ∀ t ∈ N, t ∉ D) (hB : B ⊆ B')
    (hnew : ∀ o ∈ B', o ∉ B → txOf o ∈ N) :
    refresh txOf spends (unspent txOf spends H B) B' N D = unspent txOf spends (H \ D ∪ N) B' ↔
      ∀ o, ¬ Stale txOf spends H B' N D o := by
  constructor
  · rintro heq o ⟨hoB, hput, hN, hD, hwrong⟩
    have hmem : o ∈ unspent txOf spends (H \ D ∪ N) B' := by
      rw [← heq]
      exact ⟨.inr ⟨hoB, hput⟩, hN, hD⟩
    rcases hwrong with ⟨hnN, hnH⟩ | ⟨t, ht, htD, hsp⟩
    · rcases hmem.2.1 with h | h
      · exact hnH h.1
      · exact hnN h
    · exact hmem.2.2 t (.inl ⟨ht, htD⟩) hsp
  · intro hno
    exact Set.Subset.antisymm (refresh_subset hB hno) (unspent_subset_refresh hdisj hnew)

/-! ## Values -/

section Values

variable {M : Type} [DecidableEq O] {value : O → M}

theorem sum_eq_of_support [AddCommMonoid M] {l l' : List O} (hl : l.Nodup) (hl' : l'.Nodup)
    (h : ∀ o, value o ≠ 0 → (o ∈ l ↔ o ∈ l')) : (l.map value).sum = (l'.map value).sum := by
  classical
  rw [← sum_toFinset _ hl, ← sum_toFinset _ hl', ← Finset.sum_filter_ne_zero,
    ← Finset.sum_filter_ne_zero l'.toFinset]
  refine Finset.sum_congr ?_ fun _ _ => rfl
  ext o
  simp only [Finset.mem_filter, mem_toFinset]
  exact and_congr_left fun hvalue => h o hvalue

/-- **What all transactions add up to is what is unspent.** A transaction is worth what it
creates less what it spends. No output is spent twice, and what is spent was created, unless it
has no value. -/
theorem sum_net [AddCommGroup M] {txs : List T} {creates inputs : T → List O} {unspent : List O}
    (hcreated : (txs.flatMap creates).Nodup) (hspent : (txs.flatMap inputs).Nodup)
    (hunspent : unspent.Nodup)
    (hknown : ∀ o ∈ txs.flatMap inputs, value o ≠ 0 → o ∈ txs.flatMap creates)
    (hleft : ∀ o, value o ≠ 0 → (o ∈ unspent ↔ o ∈ txs.flatMap creates ∧ o ∉ txs.flatMap inputs)) :
    (txs.map fun t => ((creates t).map value).sum - ((inputs t).map value).sum).sum =
      (unspent.map value).sum := by
  have hflat (f : T → List O) :
      (txs.map fun t => ((f t).map value).sum).sum = ((txs.flatMap f).map value).sum := by
    rw [map_flatMap, flatMap_def, sum_flatten, map_map]
    rfl
  -- the outputs created are those spent and those left
  have hsplit : ((txs.flatMap creates).map value).sum = ((txs.flatMap inputs).map value).sum +
        (((txs.flatMap creates).filter fun o => o ∉ txs.flatMap inputs).map value).sum := by
    rw [← sum_append, ← map_append]
    refine sum_eq_of_support hcreated (hspent.append (hcreated.filter _) ?_) ?_
    · intro o ho ho'
      exact of_decide_eq_true (mem_filter.1 ho').2 ho
    · intro o hvalue
      rw [mem_append, mem_filter, decide_eq_true_eq]
      by_cases ho : o ∈ txs.flatMap inputs
      · exact ⟨fun _ => .inl ho, fun _ => hknown o ho hvalue⟩
      · exact ⟨fun h => .inr ⟨h, ho⟩, fun h => h.elim (fun h => absurd h ho) And.left⟩
  have hrest : (((txs.flatMap creates).filter fun o => o ∉ txs.flatMap inputs).map value).sum =
      (unspent.map value).sum := by
    refine sum_eq_of_support (hcreated.filter _) hunspent fun o hvalue => ?_
    rw [mem_filter, decide_eq_true_eq, hleft o hvalue]
  apply add_left_cancel (a := ((txs.flatMap inputs).map value).sum)
  rw [← hrest, ← hsplit, ← hflat, ← hflat, ← sum_map_add]
  simp only [add_sub_cancel]

end Values

end Swk.Ledger
