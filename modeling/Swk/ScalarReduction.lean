import Mathlib.Tactic.LinearCombination
import Swk.Adaptor
import Swk.Instructions

/-!
# Reducing a hash to a scalar

`reduce_mod_n` of `adaptor.rs` compares a 32-byte big-endian number with the group order of
secp256k1, byte by byte from the front, and subtracts the order once, byte by byte from the back
with a borrow. One subtraction is enough because the order is more than half of `2 ^ 256`.

The comparison is that of the values (`geOrder_iff`). The subtraction keeps one equation between
values, with the borrow as the digit in front (`subtract_value`).
-/

namespace Swk.Schnorr

/-- `[u8; 32]`. -/
abbrev Bytes32 := { bytes : Bytes // bytes.length = 32 }

def beValue (bytes : Bytes) : ℕ := ofLeBytes bytes.reverse

def curveOrder : Bytes :=
  [0xFF, 0xFF, 0xFF, 0xFF, 0xFF, 0xFF, 0xFF, 0xFF, 0xFF, 0xFF, 0xFF, 0xFF, 0xFF, 0xFF, 0xFF, 0xFE,
    0xBA, 0xAE, 0xDC, 0xE6, 0xAF, 0x48, 0xA0, 0x3B, 0xBF, 0xD2, 0x5E, 0x8C, 0xD0, 0x36, 0x41, 0x41]

def groupOrder : ℕ := 0xFFFFFFFFFFFFFFFFFFFFFFFFFFFFFFFEBAAEDCE6AF48A03BBFD25E8CD0364141

/-- The first loop: equal until a byte differs. -/
def geOrder : Bytes → Bytes → Bool
  | b :: bs, c :: cs => if b < c then false else if b > c then true else geOrder bs cs
  | _, _ => true

/-- A step of the second loop, which goes from the last byte to the first. -/
def subtractByte (e : UInt8 × UInt8) (acc : Bytes × ℤ) : Bytes × ℤ :=
  let diff : ℤ := e.1.toNat - e.2.toNat - acc.2
  if diff < 0 then (.ofNat (diff + 256).toNat :: acc.1, 1) else (.ofNat diff.toNat :: acc.1, 0)

/-- The second loop: the bytes and the last borrow. -/
def subtract (bytes order : Bytes) : Bytes × ℤ := (bytes.zip order).foldr subtractByte ([], 0)

def reduceModN (bytes : Bytes) : Bytes :=
  if geOrder bytes curveOrder then (subtract bytes curveOrder).1 else bytes

/-- `Scalar` of secp256k1. It refuses what is not below the order. -/
structure Scalar where
  fromBeBytes : Bytes → Option (ZMod groupOrder)
  fromBeBytes_eq : ∀ bytes : Bytes32, fromBeBytes bytes.1 =
    if beValue bytes.1 < groupOrder then some (beValue bytes.1 : ZMod groupOrder) else none

/-- `scalar_reduced`, or nothing if it panics. -/
def scalarReduced? (scalar : Scalar) (bytes : Bytes) : Option (ZMod groupOrder) :=
  scalar.fromBeBytes (reduceModN bytes)

/-! ## Values -/

theorem ofLeBytes_append (as bs : Bytes) :
    ofLeBytes (as ++ bs) = ofLeBytes as + 256 ^ as.length * ofLeBytes bs := by
  induction as with
  | nil => simp [ofLeBytes]
  | cons a as ih =>
    rw [List.cons_append, ofLeBytes, ih, ofLeBytes, List.length_cons]
    ring

theorem beValue_cons (b : UInt8) (bs : Bytes) :
    beValue (b :: bs) = b.toNat * 256 ^ bs.length + beValue bs := by
  simp [beValue, ofLeBytes_append, ofLeBytes]
  ring

theorem beValue_lt (bs : Bytes) : beValue bs < 256 ^ bs.length := by
  induction bs with
  | nil => simp [beValue, ofLeBytes]
  | cons b bs ih =>
    have hb : b.toNat < 256 := b.toNat_lt
    rw [beValue_cons, List.length_cons, pow_succ']
    nlinarith

theorem geOrder_iff {bs cs : Bytes} (h : bs.length = cs.length) :
    geOrder bs cs = true ↔ beValue cs ≤ beValue bs := by
  induction bs generalizing cs with
  | nil =>
    cases cs with
    | nil => simp [geOrder]
    | cons c cs => cases h
  | cons b bs ih =>
    cases cs with
    | nil => cases h
    | cons c cs =>
      have hlength : bs.length = cs.length := Nat.succ.inj h
      have hbs := beValue_lt bs
      have hcs := beValue_lt cs
      rw [geOrder, beValue_cons, beValue_cons, ← hlength]
      rw [← hlength] at hcs
      generalize 256 ^ bs.length = w at *
      by_cases hlt : b < c
      · rw [if_pos hlt]
        rw [UInt8.lt_iff_toNat_lt] at hlt
        simp only [Bool.false_eq_true, false_iff]
        nlinarith
      · rw [if_neg hlt]
        by_cases hgt : b > c
        · rw [if_pos hgt]
          rw [gt_iff_lt, UInt8.lt_iff_toNat_lt] at hgt
          simp only [true_iff]
          nlinarith
        · obtain rfl : b = c := UInt8.le_antisymm (UInt8.not_lt.1 hgt) (UInt8.not_lt.1 hlt)
          rw [if_neg hgt, ih hlength]
          omega

theorem toNat_ofNat_toNat {d : ℤ} (h : 0 ≤ d) (hlt : d < 256) :
    ((UInt8.ofNat d.toNat).toNat : ℤ) = d := by
  rw [UInt8.toNat_ofNat']
  omega

/-- **The borrow is the digit in front.** -/
theorem subtract_value {bs cs : Bytes} (h : bs.length = cs.length) :
    (subtract bs cs).1.length = bs.length ∧ 0 ≤ (subtract bs cs).2 ∧ (subtract bs cs).2 ≤ 1 ∧
      (beValue bs : ℤ) + (subtract bs cs).2 * 256 ^ bs.length =
        beValue cs + beValue (subtract bs cs).1 := by
  induction bs generalizing cs with
  | nil =>
    cases cs with
    | nil => simp [subtract, beValue, ofLeBytes]
    | cons c cs => cases h
  | cons b bs ih =>
    cases cs with
    | nil => cases h
    | cons c cs =>
      have hlength : bs.length = cs.length := Nat.succ.inj h
      obtain ⟨hrest, hnonneg, hone, hvalue⟩ := ih hlength
      have hstep : subtract (b :: bs) (c :: cs) = subtractByte (b, c) (subtract bs cs) := rfl
      have hb : b.toNat < 256 := b.toNat_lt
      have hc : c.toNat < 256 := c.toNat_lt
      rw [hstep, beValue_cons, beValue_cons, ← hlength, List.length_cons, pow_succ]
      unfold subtractByte
      dsimp only
      split
      all_goals
        rw [beValue_cons, hrest]
        push_cast
        rw [toNat_ofNat_toNat (by omega) (by omega)]
        refine ⟨by simp [hrest], by decide, by decide, ?_⟩
        linear_combination hvalue

theorem beBytes_beValue (bs : Bytes) : beBytes bs.length (beValue bs) = bs := by
  have h := BitcoinScript.leBytes_ofLeBytes bs.reverse
  rw [List.length_reverse] at h
  rw [beBytes, beValue, h, List.reverse_reverse]

theorem beValue_eq_foldl (bs : Bytes) :
    beValue bs = bs.foldl (fun acc b => 256 * acc + b.toNat) 0 := by
  have hfoldr (l : Bytes) : ofLeBytes l = l.foldr (fun b acc => 256 * acc + b.toNat) 0 := by
    induction l with
    | nil => rfl
    | cons b l ih => rw [ofLeBytes, ih, List.foldr_cons, Nat.add_comm]
  rw [beValue, hfoldr, List.foldr_reverse]

theorem beValue_curveOrder : beValue curveOrder = groupOrder := by decide

theorem reduceModN_value (bytes : Bytes32) : (reduceModN bytes.1).length = 32 ∧
      beValue (reduceModN bytes.1) = beValue bytes.1 % groupOrder := by
  have hlength : bytes.1.length = curveOrder.length := bytes.2
  have hlt := beValue_lt bytes.1
  rw [bytes.2] at hlt
  unfold reduceModN
  split
  · rename_i hge
    rw [geOrder_iff hlength, beValue_curveOrder] at hge
    obtain ⟨hrest, hnonneg, hone, hvalue⟩ := subtract_value hlength
    have hbound := beValue_lt (subtract bytes.1 curveOrder).1
    rw [hrest, bytes.2] at hbound
    rw [bytes.2, beValue_curveOrder] at hvalue
    rw [hrest]
    refine ⟨bytes.2, ?_⟩
    unfold groupOrder at *
    omega
  · rename_i hge
    rw [geOrder_iff hlength, beValue_curveOrder, not_le] at hge
    exact ⟨bytes.2, (Nat.mod_eq_of_lt hge).symm⟩

/-- **Scalar reduction is exact.** The reduced bytes are those of the number modulo the group order,
so reading them as a scalar does not fail, and gives the scalar that the signatures use. -/
theorem reduceModN_exact (scalar : Scalar) (bytes : Bytes32) :
    reduceModN bytes.1 = beBytes 32 (beValue bytes.1 % groupOrder) ∧
      scalarReduced? scalar bytes.1 = some (scalarReduced groupOrder bytes.1) := by
  obtain ⟨hlength, hvalue⟩ := reduceModN_value bytes
  have hlt : beValue bytes.1 % groupOrder < groupOrder := Nat.mod_lt _ (by decide)
  constructor
  · have hbytes := beBytes_beValue (reduceModN bytes.1)
    rw [hlength, hvalue] at hbytes
    exact hbytes.symm
  · rw [scalarReduced?, scalar.fromBeBytes_eq ⟨_, hlength⟩, hvalue, if_pos hlt, ZMod.natCast_mod,
      scalarReduced, beValue_eq_foldl]

end Swk.Schnorr
