import Mathlib.Algebra.GroupWithZero.Nat
import Mathlib.Algebra.Order.BigOperators.Group.List
import Mathlib.Algebra.Order.Group.Nat
import Mathlib.Data.List.Sort

/-!
# Largest first

Taking elements from a list sorted by falling weight until they weigh enough, where what is enough
may depend on how many were taken. No choice of as many elements weighs more than the first ones
(`total_le_total_take`), so the first prefix that weighs enough uses as few elements as any choice
that does (`length_le_of_first`), and if no prefix does, no choice does (`exists_choice_iff`).
Nothing is asked of how the requirement depends on the number.
-/

namespace Swk.LargestFirst

open List

variable {α : Type} (weight : α → Nat)

/-- What the elements of a list weigh together. -/
def total (l : List α) : Nat := (l.map weight).sum

@[simp] theorem total_nil : total weight [] = 0 := rfl

@[simp] theorem total_cons (a : α) (l : List α) :
    total weight (a :: l) = weight a + total weight l :=
  sum_cons

variable {weight}

variable {l l' S : List α}

theorem total_perm (h : l.Perm l') : total weight l = total weight l' :=
  (h.map weight).sum_eq

theorem total_sublist_le (h : l.Sublist l') : total weight l ≤ total weight l' :=
  (h.map weight).sum_le_sum fun _ _ => Nat.zero_le _

theorem total_subperm_le (h : l.Subperm l') : total weight l ≤ total weight l' := by
  obtain ⟨l₁, hperm, hsub⟩ := h
  rw [← total_perm hperm]
  exact total_sublist_le hsub

/-- One more element adds no more than a bound on all weights. -/
theorem total_take_succ_le {w : Nat} (h : ∀ b ∈ l, weight b ≤ w) (n : Nat) :
    total weight (l.take (n + 1)) ≤ w + total weight (l.take n) := by
  induction l generalizing n with
  | nil => simp
  | cons b l ih =>
    have hb : weight b ≤ w := h b mem_cons_self
    cases n with
    | zero => simpa using hb
    | succ n =>
      have htail := ih (fun c hc => h c (mem_cons_of_mem _ hc)) n
      rw [take_succ_cons, take_succ_cons, total_cons, total_cons]
      omega

variable (hsorted : l.Pairwise fun a b => weight b ≤ weight a)

include hsorted

/-- **Exchange.** Of a sorted list, the first elements weigh at least as much as any others of
the same number. -/
theorem total_le_total_take (h : S.Sublist l) :
    total weight S ≤ total weight (l.take S.length) := by
  induction h with
  | slnil => simp
  | @cons S l a hsub ih =>
    obtain ⟨hhead, htail⟩ := pairwise_cons.1 hsorted
    refine (ih htail).trans ?_
    -- the choice leaves the head out: put it in for the last element taken
    cases hlen : S.length with
    | zero => simp
    | succ n =>
      rw [take_succ_cons, total_cons]
      exact total_take_succ_le hhead n
  | @cons_cons S l a hsub ih =>
    obtain ⟨-, htail⟩ := pairwise_cons.1 hsorted
    rw [length_cons, take_succ_cons, total_cons, total_cons]
    exact Nat.add_le_add_left (ih htail) _

theorem total_subperm_le_take (h : S.Subperm l) :
    total weight S ≤ total weight (l.take S.length) := by
  obtain ⟨S', hperm, hsub⟩ := h
  rw [← total_perm hperm, ← hperm.length_eq]
  exact total_le_total_take hsorted hsub

/-- **Completeness.** Some choice weighs enough exactly if some prefix does. -/
theorem exists_choice_iff (need : Nat → Nat) :
    (∃ S : List α, S.Subperm l ∧ need S.length ≤ total weight S) ↔
      ∃ n ≤ l.length, need n ≤ total weight (l.take n) := by
  refine ⟨?_, ?_⟩
  · rintro ⟨S, hsub, hneed⟩
    exact ⟨S.length, hsub.length_le, hneed.trans (total_subperm_le_take hsorted hsub)⟩
  · rintro ⟨n, hn, hneed⟩
    refine ⟨l.take n, (take_sublist n l).subperm, ?_⟩
    rwa [length_take, Nat.min_eq_left hn]

/-- **Minimality.** If no shorter prefix weighs enough, no smaller choice does. -/
theorem length_le_of_first {need : Nat → Nat} {n : Nat}
    (hfirst : ∀ m < n, ¬ need m ≤ total weight (l.take m)) (hsub : S.Subperm l)
    (hneed : need S.length ≤ total weight S) : n ≤ S.length := by
  by_contra hlt
  exact hfirst S.length (by omega) (hneed.trans (total_subperm_le_take hsorted hsub))

end Swk.LargestFirst
