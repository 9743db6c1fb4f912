import Mathlib.Algebra.Group.Nat.Defs
import Mathlib.Tactic.Common

/-!
# Saturating arithmetic

Rust's `saturating_add` and `saturating_sub` on the machine integers of the wallet, each with its
value as a natural number.
-/

namespace Swk

/-- `u64::saturating_add`. -/
def saturatingAdd64 (a b : UInt64) : UInt64 :=
  if a.toNat + b.toNat < 2 ^ 64 then a + b else UInt64.ofNat (2 ^ 64 - 1)

/-- `u32::saturating_add`. -/
def saturatingAdd32 (a b : UInt32) : UInt32 :=
  if a.toNat + b.toNat < 2 ^ 32 then a + b else UInt32.ofNat (2 ^ 32 - 1)

/-- `u32::saturating_sub`. -/
def saturatingSub32 (a b : UInt32) : UInt32 := if b ≤ a then a - b else 0

theorem toNat_saturatingAdd64 (a b : UInt64) :
    (saturatingAdd64 a b).toNat = min (a.toNat + b.toNat) (2 ^ 64 - 1) := by
  unfold saturatingAdd64
  split
  · rw [UInt64.toNat_add, Nat.mod_eq_of_lt ‹_›]
    omega
  · rw [UInt64.toNat_ofNat']
    omega

theorem toNat_saturatingAdd32 (a b : UInt32) :
    (saturatingAdd32 a b).toNat = min (a.toNat + b.toNat) (2 ^ 32 - 1) := by
  unfold saturatingAdd32
  split
  · rw [UInt32.toNat_add, Nat.mod_eq_of_lt ‹_›]
    omega
  · rw [UInt32.toNat_ofNat']
    omega

theorem toNat_saturatingSub32 (a b : UInt32) : (saturatingSub32 a b).toNat = a.toNat - b.toNat := by
  unfold saturatingSub32
  split
  · rw [UInt32.toNat_sub_of_le _ _ ‹_›]
  · rename_i h
    have hlt : a.toNat < b.toNat := UInt32.lt_iff_toNat_lt.1 (UInt32.not_le.1 h)
    rw [UInt32.toNat_zero]
    omega

end Swk
