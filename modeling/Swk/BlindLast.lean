import Mathlib.Algebra.BigOperators.Group.List.Basic
import Mathlib.Data.List.ReduceOption
import Mathlib.Tactic.Ring

/-!
# Balancing the blinding of a transaction

A blinded amount is a commitment with two factors, one for the asset and one for the value. The
commitments of a transaction add up if the amounts of each asset do and if the *terms* of the
inputs, asset factor times value plus value factor, add up to those of the outputs.

So the last output to be blinded has no free value factor: it is the one that makes up the
difference (`lastVbf`). Blinding draws factors for the other outputs and computes that one
(`blind`); outputs that are not marked are left alone. A `scalar` stands for the terms of inputs and
outputs whose factors are not known here. `terms_blind` says what the blinded outputs then add up
to.

The factors are from any commutative ring.
-/

namespace Swk

/-- An amount with the factors it is blinded with. -/
structure Opening (R : Type) where
  value : R
  abf : R
  vbf : R

namespace Opening

variable {R : Type} [CommRing R]

/-- What an amount contributes to the blinding of a transaction. -/
def term (o : Opening R) : R := o.abf * o.value + o.vbf

def terms (l : List (Opening R)) : R := (l.map term).sum

@[simp] theorem terms_nil : terms ([] : List (Opening R)) = 0 := rfl

@[simp] theorem terms_cons (o : Opening R) (l : List (Opening R)) :
    terms (o :: l) = o.term + terms l :=
  List.sum_cons

@[simp] theorem terms_append (l l' : List (Opening R)) : terms (l ++ l') = terms l + terms l' := by
  simp [terms]

/-- The last value factor: the term of the last output is what is missing. -/
def lastVbf (value abf : R) (ins outs : List (Opening R)) : R :=
  terms ins - terms outs - abf * value

variable (draw : Nat → R × R) (ins : List (Opening R)) (scalar : R)

/-- Blind the outputs that are marked, each given by its value, when `outs` are blinded already.
The last one balances the others, up to the scalar. -/
def blind : Nat → List (Opening R) → List (Option R) → List (Option (Opening R))
  | _, _, [] => []
  | i, outs, none :: rest => none :: blind (i + 1) outs rest
  | i, outs, some value :: rest =>
    if rest.any (·.isSome) then
      some ⟨value, (draw i).1, (draw i).2⟩ ::
        blind (i + 1) (outs ++ [⟨value, (draw i).1, (draw i).2⟩]) rest
    else
      some ⟨value, (draw i).1, lastVbf value (draw i).1 ins outs + scalar⟩ :: rest.map fun _ => none

variable {draw ins scalar}

/-- **Balance.** If an output is marked, the blinded outputs add up to the inputs and the scalar. -/
theorem terms_blind {i : Nat} {outs : List (Opening R)} {l : List (Option R)}
    (hmarked : l.any (·.isSome) = true) :
    terms outs + terms (blind draw ins scalar i outs l).reduceOption = terms ins + scalar := by
  induction l generalizing i outs with
  | nil => cases hmarked
  | cons o rest ih =>
    cases o with
    | none =>
      rw [blind, List.reduceOption_cons_of_none]
      exact ih (by simpa using hmarked)
    | some value =>
      by_cases hmore : rest.any (·.isSome) = true
      · -- one more output with drawn factors
        have hrest := @ih (i + 1) (outs ++ [⟨value, (draw i).1, (draw i).2⟩]) hmore
        rw [blind, if_pos hmore, List.reduceOption_cons_of_some, terms_cons, ← hrest,
          terms_append, terms_cons, terms_nil]
        ring
      · have hnone : (rest.map fun _ => (none : Option (Opening R))).reduceOption = [] := by
          simp [List.reduceOption]
        rw [blind, if_neg hmore, List.reduceOption_cons_of_some, hnone, terms_cons, terms_nil]
        unfold term lastVbf
        ring

theorem terms_blind_nil {i : Nat} {l : List (Option R)} (hmarked : l.any (·.isSome) = true) :
    terms (blind draw ins scalar i [] l).reduceOption = terms ins + scalar := by
  have h := @terms_blind R _ draw ins scalar i [] l hmarked
  rwa [terms_nil, zero_add] at h

end Opening

end Swk
