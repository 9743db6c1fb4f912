import Mathlib.Tactic.Common

/-!
# The bytes of a text

Rust measures a text in bytes of UTF-8.
-/

namespace Swk

/-- `str::len`. -/
def byteLen : List Char → Nat
  | [] => 0
  | c :: cs => c.utf8Size + byteLen cs

@[simp] theorem byteLen_append (a b : List Char) : byteLen (a ++ b) = byteLen a + byteLen b := by
  induction a with
  | nil => simp [byteLen]
  | cons c a ih => simp [byteLen, ih, Nat.add_assoc]

/-- An ASCII text has a byte for every character. -/
theorem byteLen_eq_length {cs : List Char} (h : ∀ c ∈ cs, c.utf8Size = 1) :
    byteLen cs = cs.length := by
  induction cs with
  | nil => rfl
  | cons c cs ih =>
    obtain ⟨hc, hcs⟩ := List.forall_mem_cons.1 h
    simp [byteLen, hc, ih hcs, Nat.add_comm]

end Swk
