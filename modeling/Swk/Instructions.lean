import Swk.BitcoinScript
import Swk.Codec

/-!
# Walking a script

The iterator over the instructions of a script, following `script.rs` of the Elements library. It
tells pushes from opcodes and nothing else: a number opcode is no push, and a push is taken in any
of its four forms, however long the form is for the data.

`nextInstruction_iff` says which bytes an instruction can come from. An instruction ends where its
bytes say, so two ways to cut a script into instructions are one (`Encodes.append_inj`).
-/

namespace Swk.BitcoinScript

open List

inductive Instruction
  | pushBytes (data : Item)
  | op (opcode : UInt8)
deriving DecidableEq

/-- `Instruction::push_bytes`. -/
def Instruction.pushBytes? : Instruction → Option Item
  | .pushBytes data => some data
  | .op _ => none

/-- A push of `n` bytes after `skip` bytes of length. A push that is cut short is an error, and
ends the iterator. -/
def nextPush (rest : Item) (skip n : Nat) : Option Instruction × Item :=
  if skip + n ≤ rest.length then
    (some (.pushBytes ((rest.drop skip).take n)), rest.drop (skip + n))
  else (none, [])

/-- `Instructions::next`, without minimal pushes enforced: nothing at the end of the script, and
otherwise an instruction or an error, with what is left. -/
def nextInstruction : Item → Option (Option Instruction × Item)
  | [] => none
  | opcode :: rest =>
    some <|
      if opcode ≤ 0x4b then nextPush rest 0 opcode.toNat
      else if opcode = 0x4c then nextPush rest 1 (ofLeBytes (rest.take 1))
      else if opcode = 0x4d then nextPush rest 2 (ofLeBytes (rest.take 2))
      else if opcode = 0x4e then nextPush rest 4 (ofLeBytes (rest.take 4))
      else (some (.op opcode), rest)

/-- The opcodes that give the length of a push, each with the size of the length. -/
def pushDataSizes : List (UInt8 × Nat) := [(0x4c, 1), (0x4d, 2), (0x4e, 4)]

inductive Encodes : Item → Instruction → Prop
  | op (opcode : UInt8) (h : 0x4e < opcode) : Encodes [opcode] (.op opcode)
  | direct (data : Item) (h : data.length ≤ 0x4b) :
      Encodes (.ofNat data.length :: data) (.pushBytes data)
  | pushData {opcode : UInt8} {size : Nat} (hsize : (opcode, size) ∈ pushDataSizes)
      (data : Item) (h : data.length < 256 ^ size) :
      Encodes (opcode :: (leBytes size data.length ++ data)) (.pushBytes data)

/-! ## What is read -/

theorem leBytes_ofLeBytes (bs : Bytes) : leBytes bs.length (ofLeBytes bs) = bs := by
  induction bs with
  | nil => rfl
  | cons b bs ih =>
    have hb : b.toNat < 256 := b.toNat_lt
    have hlow : UInt8.ofNat (b.toNat + 256 * ofLeBytes bs) = b := by
      rw [← UInt8.toNat_inj, UInt8.toNat_ofNat']
      omega
    have hhigh : (b.toNat + 256 * ofLeBytes bs) / 256 = ofLeBytes bs := by omega
    rw [length_cons, ofLeBytes, leBytes, hlow, hhigh, ih]

theorem ofLeBytes_lt (bs : Bytes) : ofLeBytes bs < 256 ^ bs.length := by
  induction bs with
  | nil => simp [ofLeBytes]
  | cons b bs ih =>
    have hb : b.toNat < 256 := b.toNat_lt
    rw [length_cons, ofLeBytes, pow_succ]
    omega

theorem nextPush_append (l data tail : Item) :
    nextPush (l ++ (data ++ tail)) l.length data.length = (some (.pushBytes data), tail) := by
  unfold nextPush
  rw [if_pos (by simp), drop_left, take_left, ← append_assoc, ← length_append, drop_left]

variable {tail : Item} {i : Instruction}

/-- A push that is read is there in full: its length, its data, and what is left. -/
theorem nextPush_some {rest : Item} {skip n : Nat} (h : nextPush rest skip n = (some i, tail)) :
    ∃ data, i = .pushBytes data ∧ data.length = n ∧
      rest = rest.take skip ++ (data ++ tail) ∧ (rest.take skip).length = skip := by
  unfold nextPush at h
  by_cases hlong : skip + n ≤ rest.length
  · rw [if_pos hlong, Prod.mk.injEq, Option.some_inj] at h
    obtain ⟨rfl, rfl⟩ := h
    refine ⟨_, rfl, by simp; omega, ?_, by simp; omega⟩
    rw [← drop_drop, take_append_drop, take_append_drop]
  · rw [if_neg hlong] at h
    cases h

theorem nextInstruction_pushData {opcode : UInt8} {size : Nat}
    (h : (opcode, size) ∈ pushDataSizes) (rest : Item) : nextInstruction (opcode :: rest) =
      some (nextPush rest size (ofLeBytes (rest.take size))) := by
  simp only [pushDataSizes, mem_cons, Prod.mk.injEq, not_mem_nil, or_false] at h
  rcases h with ⟨rfl, rfl⟩ | ⟨rfl, rfl⟩ | ⟨rfl, rfl⟩ <;> rfl

theorem nextInstruction_of_encodes {p : Item} (h : Encodes p i) (tail : Item) :
    nextInstruction (p ++ tail) = some (some i, tail) := by
  cases h with
  | op opcode h =>
    have hne : ∀ b : UInt8, b ≤ 0x4e → opcode ≠ b := by
      rintro b hb rfl
      exact UInt8.not_lt.2 hb h
    have hpush : ¬ opcode ≤ 0x4b := by
      rw [UInt8.not_le]
      exact UInt8.lt_trans (by decide) h
    simp [nextInstruction, hpush, hne 0x4c (by decide), hne 0x4d (by decide), hne 0x4e (by decide)]
  | direct data h =>
    have hlength : (UInt8.ofNat data.length).toNat = data.length := by
      rw [UInt8.toNat_ofNat']
      omega
    have hpush : UInt8.ofNat data.length ≤ 0x4b := by
      rw [UInt8.le_iff_toNat_le, hlength]
      exact h
    rw [cons_append, nextInstruction, if_pos hpush, hlength]
    exact congrArg some (nextPush_append [] data tail)
  | @pushData opcode size hsize data h =>
    have htake : (leBytes size data.length ++ (data ++ tail)).take size =
        leBytes size data.length := take_left' (length_leBytes _ _)
    have hpush := nextPush_append (leBytes size data.length) data tail
    rw [length_leBytes] at hpush
    rw [cons_append, nextInstruction_pushData hsize, append_assoc, htake,
      ofLeBytes_leBytes h, hpush]

theorem encodes_pushData {opcode : UInt8} {size : Nat} (hsize : (opcode, size) ∈ pushDataSizes)
    {rest : Item} (h : nextPush rest size (ofLeBytes (rest.take size)) = (some i, tail)) :
    ∃ p, Encodes p i ∧ opcode :: rest = p ++ tail := by
  obtain ⟨data, rfl, hlength, hrest, hskip⟩ := nextPush_some h
  have hbytes := leBytes_ofLeBytes (rest.take size)
  have hlt := ofLeBytes_lt (rest.take size)
  rw [hskip, ← hlength] at hbytes hlt
  refine ⟨_, Encodes.pushData hsize data hlt, ?_⟩
  rw [hbytes, cons_append, append_assoc, ← hrest]

/-- **Instructions.** What the iterator returns is read from bytes that encode it, and every
encoding is read. -/
theorem nextInstruction_iff {s : Item} :
    nextInstruction s = some (some i, tail) ↔ ∃ p, Encodes p i ∧ s = p ++ tail := by
  refine ⟨fun h => ?_, ?_⟩
  · cases s with
    | nil => cases h
    | cons opcode rest =>
      rw [nextInstruction, Option.some_inj] at h
      by_cases hdirect : opcode ≤ 0x4b
      · rw [if_pos hdirect] at h
        obtain ⟨data, rfl, hlength, hrest, -⟩ := nextPush_some h
        have hle : data.length ≤ 0x4b := hlength ▸ UInt8.le_iff_toNat_le.1 hdirect
        refine ⟨_, Encodes.direct data hle, ?_⟩
        rw [hlength, UInt8.ofNat_toNat, cons_append]
        exact congrArg _ hrest
      · rw [if_neg hdirect] at h
        by_cases h1 : opcode = 0x4c
        · rw [if_pos h1] at h
          exact encodes_pushData (by simp [h1, pushDataSizes]) h
        · rw [if_neg h1] at h
          by_cases h2 : opcode = 0x4d
          · rw [if_pos h2] at h
            exact encodes_pushData (by simp [h2, pushDataSizes]) h
          · rw [if_neg h2] at h
            by_cases h4 : opcode = 0x4e
            · rw [if_pos h4] at h
              exact encodes_pushData (by simp [h4, pushDataSizes]) h
            · rw [if_neg h4, Prod.mk.injEq, Option.some_inj] at h
              obtain ⟨rfl, rfl⟩ := h
              refine ⟨_, Encodes.op opcode ?_, rfl⟩
              simp only [UInt8.le_iff_toNat_le, UInt8.lt_iff_toNat_lt, ← UInt8.toNat_inj]
                at hdirect h1 h2 h4 ⊢
              simp only [UInt8.reduceToNat] at *
              omega
  · rintro ⟨p, hp, rfl⟩
    exact nextInstruction_of_encodes hp tail

/-- A script is cut into instructions in one way. -/
theorem Encodes.append_inj {p p' tail' : Item} {i' : Instruction} (h : Encodes p i)
    (h' : Encodes p' i') (heq : p ++ tail = p' ++ tail') : p = p' ∧ tail = tail' := by
  have hread := nextInstruction_of_encodes h tail
  rw [heq, nextInstruction_of_encodes h' tail', Option.some_inj, Prod.mk.injEq] at hread
  obtain ⟨-, rfl⟩ := hread
  exact ⟨append_cancel_right heq, rfl⟩

theorem encodes_pushSlice {data : Item} (h : data.length ≤ 0x4b) :
    Encodes (pushSlice data) (.pushBytes data) := by
  have hshort : data.length < 0x4c := by omega
  rw [pushSlice]
  simp only [hshort, if_true]
  exact Encodes.direct data h

end Swk.BitcoinScript
