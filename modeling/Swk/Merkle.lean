import Mathlib.Data.Nat.Log
import Mathlib.Logic.Function.Basic
import Mathlib.Tactic.Ring

/-!
# Merkle trees of the Ledger protocol

`merkle.rs`: a list of hashes is split at the largest power of two below its length, and a proof
lists the siblings from the leaf to the root. Where to split is found with bit tricks and a loop,
and proofs find their way by the heights of subtrees, not by their sizes.

**Theorem (`leafProof_verifies`).** Climbing a proof from its leaf, with the sides that the
canonical tree of that size prescribes, gives the root; and if the hash of two nodes determines
them, nothing but the leaf climbs to the root.

The left subtree is a power of two in size, so its height tells its size (`Built.height`), and going
by heights is going by sizes. One record, `Built`, is kept by the recursion of `Tree::new`.
-/

namespace Swk.Ledger

/-! ## Powers of two -/

/-- The loop of `floor_lg`, for so many rounds. -/
def floorLgLoop (n : Nat) : Nat → Nat → Nat → Nat
  | 0, _, r => r
  | fuel + 1, t, r => if 2 * t ≤ n then floorLgLoop n fuel (t * 2) (r + 1) else r

def floorLg (n : Nat) : Nat := floorLgLoop n n 1 0

def pow2 (n : Nat) : Nat := (List.range n).foldl (fun p _ => p * 2) 1

/-- `is_power_of_2`, of a positive number. -/
def isPowerOf2 (n : Nat) : Bool := n &&& (n - 1) = 0

/-- `largest_power_of_2_less_than`, which panics below two. -/
def largestPowerOf2LessThan (n : Nat) : Option Nat :=
  if n = 2 then some 1
  else if n > 1 then some (if isPowerOf2 n then n / 2 else 1 <<< floorLg n)
  else none

/-! ## Trees -/

inductive Tree (H : Type)
  | node (value : H) (left right : Tree H) (height : Nat)
  | leaf (index : Nat)

namespace Tree

variable {H : Type} (hashNode : H → H → H) (leaves : List H)

/-- `Tree::value`. An index outside of the leaves panics. -/
def value : Tree H → Option H
  | node value _ _ _ => some value
  | leaf index => leaves[index]?

def height : Tree H → Nat
  | node _ _ _ height => height
  | leaf _ => 0

/-- `Tree::new`, for so many nested calls. A tree of no leaves panics. -/
def newIn : Nat → Nat → Nat → Option (Tree H)
  | 0, _, _ => none
  | depth + 1, start, size =>
    if size = 1 then some (leaf start)
    else do
      let lchildSize ← largestPowerOf2LessThan size
      let lchild ← newIn depth start lchildSize
      let rchild ← newIn depth (start + lchildSize) (size - lchildSize)
      let l ← lchild.value leaves
      let r ← rchild.value leaves
      some (node (hashNode l r) lchild rchild (lchild.height + 1))

/-- `Tree::new`. Both parts are smaller, so it is not nested deeper than the size. -/
def new (start size : Nat) : Option (Tree H) := newIn hashNode leaves size start size

def getProof : Tree H → Nat → Option (List H)
  | leaf _, _ => some []
  | node _ left right _, index =>
    if index < pow2 left.height then do
      let proof ← left.getProof index
      let sibling ← right.value leaves
      some (proof ++ [sibling])
    else do
      let proof ← right.getProof (index - pow2 left.height)
      let sibling ← left.value leaves
      some (proof ++ [sibling])

end Tree

structure MerkleTree (H : Type) where
  root : Tree H
  leaves : List H

namespace MerkleTree

variable {H : Type}

/-- `MerkleTree::new`, or nothing if it panics. -/
def new (hashNode : H → H → H) (leaves : List H) : Option (MerkleTree H) :=
  (Tree.new hashNode leaves 0 leaves.length).map fun root => ⟨root, leaves⟩

def rootHash (t : MerkleTree H) : Option H := t.root.value t.leaves

/-- `get_leaf_proof`. The outer option is a panic, the inner one an index out of bounds. -/
def getLeafProof (t : MerkleTree H) (index : Nat) : Option (Option (List H)) :=
  if index ≥ t.leaves.length then some none else (t.root.getProof t.leaves index).map some

end MerkleTree

/-! ## Verifying a proof -/

inductive Side
  | left
  | right
deriving DecidableEq

/-- The largest power of two below a number of at least two. -/
def splitSize (n : Nat) : Nat := 2 ^ Nat.log 2 (n - 1)

/-- On which side the way from a leaf to the root of the canonical tree meets each node, for trees
up to a depth. -/
def sidesIn : Nat → Nat → Nat → List Side
  | 0, _, _ => []
  | depth + 1, n, i =>
    if n ≤ 1 then []
    else if i < splitSize n then sidesIn depth (splitSize n) i ++ [.left]
    else sidesIn depth (n - splitSize n) (i - splitSize n) ++ [.right]

/-- The sides for leaf `i` of `n`. -/
def sides (n i : Nat) : List Side := sidesIn n n i

variable {H : Type} (hashNode : H → H → H)

def combine (v : H) (e : Side × H) : H :=
  match e.1 with
  | .left => hashNode v e.2
  | .right => hashNode e.2 v

/-- Go from a value to the root, along the whole proof. -/
def climb : List Side → List H → H → Option H
  | [], [], v => some v
  | side :: sides, sibling :: proof, v => climb sides proof (combine hashNode v (side, sibling))
  | _, _, _ => none

/-! ## Sizes and heights -/

theorem pow2_eq (n : Nat) : pow2 n = 2 ^ n := by
  induction n with
  | zero => rfl
  | succ n ih =>
    unfold pow2 at ih ⊢
    rw [List.range_succ, List.foldl_append, ih, pow_succ]
    rfl

variable {n depth start : Nat} {proof : List H} {side : Side} {v root v' : H}

theorem floorLgLoop_eq {fuel r : Nat} (hle : 2 ^ r ≤ n) (hfuel : n < 2 ^ (r + fuel)) :
    floorLgLoop n fuel (2 ^ r) r = Nat.log 2 n := by
  induction fuel generalizing r with
  | zero => exact absurd hle (Nat.not_le.2 hfuel)
  | succ fuel ih =>
    rw [floorLgLoop]
    split
    · rw [← pow_succ]
      exact ih (by rw [pow_succ]; omega) (by rwa [Nat.add_right_comm])
    · exact (Nat.log_eq_of_pow_le_of_lt_pow hle (by rw [pow_succ]; omega)).symm

theorem floorLg_eq (h : 0 < n) : floorLg n = Nat.log 2 n := by
  have hfuel : n < 2 ^ (0 + n) := by
    rw [Nat.zero_add]
    exact Nat.lt_two_pow_self
  exact floorLgLoop_eq (r := 0) h hfuel

theorem splitSize_bounds (h : 2 ≤ n) : splitSize n < n ∧ n ≤ 2 * splitSize n := by
  have hle := Nat.pow_log_le_self 2 (x := n - 1) (by omega)
  have hlt := Nat.lt_pow_succ_log_self (b := 2) (by decide) (n - 1)
  rw [pow_succ] at hlt
  unfold splitSize
  omega

theorem splitSize_eq {j : Nat} (hlt : 2 ^ j < n) (hle : n ≤ 2 * 2 ^ j) : splitSize n = 2 ^ j := by
  have hlog : Nat.log 2 (n - 1) = j :=
    Nat.log_eq_of_pow_le_of_lt_pow (by omega) (by rw [pow_succ]; omega)
  rw [splitSize, hlog]

theorem largestPowerOf2LessThan_eq (h : 2 ≤ n) :
    largestPowerOf2LessThan n = some (splitSize n) := by
  unfold largestPowerOf2LessThan
  split
  · subst n
    rfl
  · rw [if_pos (show n > 1 from h), isPowerOf2]
    by_cases hpower : n.isPowerOfTwo
    · obtain ⟨k, rfl⟩ := hpower
      have hand := (Nat.and_sub_one_eq_zero_iff_isPowerOfTwo (by omega)).2 ⟨k, rfl⟩
      cases k with
      | zero => omega
      | succ k =>
        rw [pow_succ] at *
        have hpos : 0 < 2 ^ k := Nat.two_pow_pos k
        rw [splitSize_eq (j := k) (by omega) (by omega)]
        simp [hand]
    · have hand := mt (Nat.and_sub_one_eq_zero_iff_isPowerOfTwo (by omega)).1 hpower
      have hle := Nat.pow_log_le_self 2 (x := n) (by omega)
      have hlt := Nat.lt_pow_succ_log_self (b := 2) (by decide) n
      have hne : 2 ^ Nat.log 2 n ≠ n := fun heq => hpower ⟨_, heq.symm⟩
      rw [pow_succ] at hlt
      rw [splitSize_eq (j := Nat.log 2 n) (by omega) (by omega), floorLg_eq (by omega)]
      simp [hand, Nat.one_shiftLeft]

/-! ## Trees that were built -/

/-- What holds of a tree of `size` leaves from `start` on. -/
structure Built (leaves : List H) (depth start size : Nat) (t : Tree H) : Prop where
  /-- The height is the logarithm of the size, rounded up. -/
  height : size ≤ 2 ^ t.height ∧ 2 ^ t.height < 2 * size
  proves : ∃ root, t.value leaves = some root ∧ ∀ i < size, ∃ leaf proof,
    leaves[start + i]? = some leaf ∧ t.getProof leaves i = some proof ∧
      proof.length = (sidesIn depth size i).length ∧ proof.length ≤ t.height ∧
      climb hashNode (sidesIn depth size i) proof leaf = some root

variable {hashNode} {leaves : List H}

theorem Built.two_pow_height {t : Tree H} (h : Built hashNode leaves depth start (splitSize n) t) :
    2 ^ t.height = splitSize n := by
  obtain ⟨hle, hlt⟩ := h.height
  unfold splitSize at *
  rw [← Nat.pow_succ', Nat.pow_lt_pow_iff_right (by decide)] at hlt
  rw [Nat.pow_le_pow_iff_right (by decide)] at hle
  rw [Nat.le_antisymm (Nat.lt_succ_iff.1 hlt) hle]

theorem climb_append {sides : List Side} {sibling : H}
    (h : climb hashNode sides proof v = some root) :
    climb hashNode (sides ++ [side]) (proof ++ [sibling]) v =
      some (combine hashNode root (side, sibling)) := by
  induction sides generalizing proof v with
  | nil =>
    cases proof with
    | nil =>
      cases h
      rfl
    | cons => simp [climb] at h
  | cons s sides ih =>
    cases proof with
    | nil => simp [climb] at h
    | cons p proof => exact ih h

theorem newIn_built {size : Nat} (hpos : 0 < size) (hdepth : size ≤ depth)
    (hleaves : start + size ≤ leaves.length) :
    ∃ t, Tree.newIn hashNode leaves depth start size = some t ∧
      Built hashNode leaves depth start size t := by
  induction depth generalizing start size with
  | zero => omega
  | succ depth ih =>
    rw [Tree.newIn]
    by_cases hone : size = 1
    · subst hone
      have hget : leaves[start]? = some leaves[start] := List.getElem?_eq_getElem _
      refine ⟨_, if_pos rfl, ⟨le_refl 1, Nat.one_lt_two⟩, _, hget, fun i hi => ?_⟩
      obtain rfl : i = 0 := by omega
      exact ⟨_, [], hget, rfl, rfl, le_refl 0, rfl⟩
    · have htwo : 2 ≤ size := by omega
      obtain ⟨hlt, hle⟩ := splitSize_bounds htwo
      have hsplit : 0 < splitSize size := Nat.two_pow_pos _
      obtain ⟨l, hl, hleft⟩ := @ih start _ hsplit (by omega) (by omega)
      obtain ⟨r, hr, hright⟩ := @ih (start + splitSize size) (size - splitSize size) (by omega)
        (by omega) (by omega)
      obtain ⟨lv, hlv, hlproofs⟩ := hleft.proves
      obtain ⟨rv, hrv, hrproofs⟩ := hright.proves
      have hheight := hleft.two_pow_height
      have hpow : pow2 l.height = splitSize size := (pow2_eq _).trans hheight
      have hle_height : r.height ≤ l.height := by
        rw [← Nat.lt_succ_iff, ← Nat.pow_lt_pow_iff_right (a := 2) (by decide), pow_succ, hheight]
        have := hright.height.2
        omega
      refine ⟨.node (hashNode lv rv) l r (l.height + 1), ?_, ?_, _, rfl, fun i hi => ?_⟩
      · simp [hone, largestPowerOf2LessThan_eq htwo, hl, hr, hlv, hrv]
      · show _ ≤ 2 ^ (l.height + 1) ∧ 2 ^ (l.height + 1) < _
        rw [pow_succ, hheight]
        omega
      · rw [sidesIn, if_neg (by omega), Tree.getProof, hpow]
        by_cases hside : i < splitSize size
        · obtain ⟨leaf, proof, hleaf, hproof, hlength, hbound, hclimb⟩ := hlproofs i hside
          rw [if_pos hside, if_pos hside]
          refine ⟨leaf, proof ++ [rv], hleaf, by simp [hproof, hrv], by simp [hlength], ?_, ?_⟩
          · simpa [Tree.height] using hbound
          · exact climb_append hclimb
        · obtain ⟨leaf, proof, hleaf, hproof, hlength, hbound, hclimb⟩ :=
            hrproofs (i - splitSize size) (by omega)
          rw [Nat.add_assoc, Nat.add_sub_cancel' (Nat.not_lt.1 hside)] at hleaf
          rw [if_neg hside, if_neg hside]
          refine ⟨leaf, proof ++ [lv], hleaf, by simp [hproof, hlv], by simp [hlength], ?_, ?_⟩
          · simpa [Tree.height] using hbound.trans hle_height
          · exact climb_append hclimb

/-! ## Nothing else climbs to the root -/

theorem combine_injective (hinj : Function.Injective2 hashNode) {p p' : H}
    (h : combine hashNode v (side, p) = combine hashNode v' (side, p')) : v = v' := by
  cases side with
  | left => exact (hinj h).1
  | right => exact (hinj h).2

theorem climb_injective (hinj : Function.Injective2 hashNode) {sides : List Side} {proof' : List H}
    (h : climb hashNode sides proof v = some root) (h' : climb hashNode sides proof' v' = some root)
    : v = v' := by
  induction sides generalizing proof proof' v v' with
  | nil => cases proof <;> cases proof' <;> simp_all [climb]
  | cons side sides ih =>
    cases proof with
    | nil => simp [climb] at h
    | cons p proof =>
      cases proof' with
      | nil => simp [climb] at h'
      | cons p' proof' => exact combine_injective hinj (ih h h')

theorem new_built (h : leaves ≠ []) : ∃ t, MerkleTree.new hashNode leaves = some ⟨t, leaves⟩ ∧
    Built hashNode leaves leaves.length 0 leaves.length t := by
  obtain ⟨t, ht, hbuilt⟩ := @newIn_built H hashNode _ 0 _ _ (List.length_pos_iff.2 h)
    (le_refl _) (Nat.le_of_eq (Nat.zero_add _))
  exact ⟨t, by rw [MerkleTree.new, Tree.new, ht, Option.map_some], hbuilt⟩

/-- **Merkle proofs verify.** The proof of a leaf has a hash for each side, and climbs from the leaf
to the root. If the hash of a node determines its parts, what climbs to the root at that place is
the leaf. -/
theorem leafProof_verifies (hashNode : H → H → H) (leaves : List H) (i : Fin leaves.length) :
    ∃ tree root proof, MerkleTree.new hashNode leaves = some tree ∧ tree.rootHash = some root ∧
      tree.getLeafProof i = some (some proof) ∧
      proof.length = (sides leaves.length i).length ∧
      climb hashNode (sides leaves.length i) proof leaves[i] = some root ∧
      (Function.Injective2 hashNode → ∀ v other,
        climb hashNode (sides leaves.length i) other v = some root → v = leaves[i]) := by
  have hne : leaves ≠ [] := List.ne_nil_of_length_pos i.pos
  obtain ⟨t, hnew, hbuilt⟩ := @new_built H hashNode _ hne
  obtain ⟨root, hroot, hproofs⟩ := hbuilt.proves
  obtain ⟨leaf, proof, hleaf, hproof, hlength, -, hclimb⟩ := hproofs i i.isLt
  rw [Nat.zero_add, List.getElem?_eq_getElem i.isLt, Option.some_inj] at hleaf
  subst hleaf
  refine ⟨_, root, proof, hnew, hroot, ?_, hlength, hclimb, fun hinj v other h => ?_⟩
  · rw [MerkleTree.getLeafProof, if_neg (Nat.not_le.2 i.isLt), hproof, Option.map_some]
  · exact climb_injective hinj h hclimb

inductive Term
  | leaf (element : Nat)
  | node (left right : Term)

/-- With such hashes, only the second of three leaves climbs to the root at its place. -/
theorem leafProof_verifies_terms : Function.Injective2 Term.node ∧ ∃ tree root,
    MerkleTree.new Term.node [.leaf 0, .leaf 1, .leaf 2] = some tree ∧
      tree.rootHash = some root ∧ ∀ v p q,
        climb Term.node [.right, .left] [p, q] v = some root → v = .leaf 1 := by
  have hinj : Function.Injective2 Term.node := fun _ _ _ _ h => Term.node.inj h
  refine ⟨hinj, ?_⟩
  obtain ⟨tree, root, proof, hnew, hroot, hproof, -, -, honly⟩ :=
    leafProof_verifies Term.node [.leaf 0, .leaf 1, .leaf 2] ⟨1, by decide⟩
  cases hnew
  cases hproof
  exact ⟨_, root, rfl, hroot, fun v p q => honly hinj v [p, q]⟩

/-- **Merkle proofs are short.** They have no more hashes than the logarithm of the number of
leaves, rounded up. -/
theorem leafProof_length_lt (hashNode : H → H → H) (leaves : List H) (i : Fin leaves.length) :
    ∃ tree proof, MerkleTree.new hashNode leaves = some tree ∧
      tree.getLeafProof i = some (some proof) ∧ 2 ^ proof.length < 2 * leaves.length := by
  obtain ⟨t, hnew, hbuilt⟩ := @new_built H hashNode _ (List.ne_nil_of_length_pos i.pos)
  obtain ⟨root, -, hproofs⟩ := hbuilt.proves
  obtain ⟨leaf, proof, -, hproof, -, hheight, -⟩ := hproofs i i.isLt
  refine ⟨_, proof, hnew, ?_, ?_⟩
  · rw [MerkleTree.getLeafProof, if_neg (Nat.not_le.2 i.isLt), hproof, Option.map_some]
  · exact (Nat.pow_le_pow_right two_pos hheight).trans_lt hbuilt.height.2

end Swk.Ledger
