import Swk.Instructions

/-!
# Delegation records

A staker lends its weight to a signer by funding one bare output, the delegation record. This
module has the script of a record and the parser a restored wallet recognises one with, following
`sequentia_delegation.rs`.

The builder writes exact opcodes and the shortest pushes. The parser walks the instructions: it
checks which of them are pushes, and what is pushed, but not which opcodes stand between the
pushes, which instruction stands at the end, nor in which form a push is written. So it accepts
more than the builder writes (`parseDelegationScript_iff`), and is its inverse on just those
scripts that are no look-alike of a record (`parse_inverse_iff`).
-/

namespace Swk.Delegation

open BitcoinScript

/-- `DELEGATION_MARKER`, the letters `SEQDEL`. -/
def delegationMarker : Item := [0x53, 0x45, 0x51, 0x44, 0x45, 0x4c]

def sequentiaDelegationScript (controllerPubkey signerPubkey : Item) : Item :=
  pushSlice delegationMarker ++ 0x75 :: (pushSlice signerPubkey ++
    0x75 :: (pushSlice controllerPubkey ++ [0xac]))

/-- `instructions.next()?.ok()?`. -/
def nextOk (s : Item) : Option (Instruction × Item) := do
  let (i, rest) ← nextInstruction s
  let i ← i
  some (i, rest)

/-- `instructions.next()?.ok()?.push_bytes()?`. -/
def nextPushed (s : Item) : Option (Item × Item) := do
  let (i, rest) ← nextOk s
  let data ← i.pushBytes?
  some (data, rest)

/-- An instruction where an `OP_DROP` is expected: it must not be a push. -/
def nextDrop (s : Item) : Option Item := do
  let (i, rest) ← nextOk s
  if i.pushBytes?.isSome then none else some rest

/-- `parse_delegation_script`: the controller and the signer. -/
def parseDelegationScript (script : Item) : Option (Item × Item) := do
  let (marker, s) ← nextPushed script
  if marker ≠ delegationMarker then none
  else
    let s ← nextDrop s
    let (signer, s) ← nextPushed s
    let s ← nextDrop s
    let (controller, s) ← nextPushed s
    let (_, s) ← nextOk s
    if (nextInstruction s).isSome then none
    else if signer.length ≠ 33 ∨ controller.length ≠ 33 then none
    else some (controller, signer)

/-! ## Layouts -/

structure Layout where
  marker : Item
  drop₁ : Item
  signer : Item
  drop₂ : Item
  controller : Item
  last : Item

namespace Layout

def script (l : Layout) : Item :=
  l.marker ++ (l.drop₁ ++ (l.signer ++ (l.drop₂ ++ (l.controller ++ l.last))))

/-- The pieces look like a record: three pushes, with an opcode after the first two and an
instruction after the third. -/
structure LooksLike (l : Layout) (c k : Item) : Prop where
  marker : Encodes l.marker (.pushBytes delegationMarker)
  drop₁ : ∃ opcode, Encodes l.drop₁ (.op opcode)
  signer : Encodes l.signer (.pushBytes k)
  drop₂ : ∃ opcode, Encodes l.drop₂ (.op opcode)
  controller : Encodes l.controller (.pushBytes c)
  last : ∃ i, Encodes l.last i
  signer_length : k.length = 33
  controller_length : c.length = 33

def record (c k : Item) : Layout where
  marker := pushSlice delegationMarker
  drop₁ := [0x75]
  signer := pushSlice k
  drop₂ := [0x75]
  controller := pushSlice c
  last := [0xac]

theorem script_record (c k : Item) : (record c k).script = sequentiaDelegationScript c k := rfl

theorem looksLike_record {c k : Item} (hc : c.length = 33) (hk : k.length = 33) :
    (record c k).LooksLike c k where
  marker := encodes_pushSlice (by decide)
  drop₁ := ⟨0x75, .op 0x75 (by decide)⟩
  signer := encodes_pushSlice (by omega)
  drop₂ := ⟨0x75, .op 0x75 (by decide)⟩
  controller := encodes_pushSlice (by omega)
  last := ⟨_, .op 0xac (by decide)⟩
  signer_length := hk
  controller_length := hc

theorem LooksLike.script_inj {l l' : Layout} {c k c' k' : Item} (h : l.LooksLike c k)
    (h' : l'.LooksLike c' k') (heq : l.script = l'.script) : l = l' := by
  obtain ⟨_, hdrop₁⟩ := h.drop₁
  obtain ⟨_, hdrop₁'⟩ := h'.drop₁
  obtain ⟨_, hdrop₂⟩ := h.drop₂
  obtain ⟨_, hdrop₂'⟩ := h'.drop₂
  obtain ⟨hmarker, heq⟩ := h.marker.append_inj h'.marker heq
  obtain ⟨hfirst, heq⟩ := hdrop₁.append_inj hdrop₁' heq
  obtain ⟨hsigner, heq⟩ := h.signer.append_inj h'.signer heq
  obtain ⟨hsecond, heq⟩ := hdrop₂.append_inj hdrop₂' heq
  obtain ⟨hcontroller, hlast⟩ := h.controller.append_inj h'.controller heq
  cases l
  cases l'
  simp_all

end Layout

/-! ## What the parser accepts -/

variable {s rest data p : Item} {i : Instruction}

theorem nextOk_iff :
    nextOk s = some (i, rest) ↔ ∃ p, Encodes p i ∧ s = p ++ rest := by
  rw [← nextInstruction_iff, nextOk]
  simp [Option.bind_eq_some_iff]

theorem nextPushed_iff :
    nextPushed s = some (data, rest) ↔ ∃ p, Encodes p (.pushBytes data) ∧ s = p ++ rest := by
  rw [← nextOk_iff, nextPushed]
  simp only [Option.bind_eq_bind, Option.bind_eq_some_iff, Prod.exists]
  refine ⟨?_, fun h => ⟨_, _, h, _, rfl, rfl⟩⟩
  rintro ⟨i, rest', h, data', hdata, heq⟩
  cases heq
  cases i with
  | pushBytes data' =>
    cases hdata
    exact h
  | op opcode => cases hdata

theorem nextDrop_iff :
    nextDrop s = some rest ↔ ∃ p opcode, Encodes p (.op opcode) ∧ s = p ++ rest := by
  simp only [nextDrop, Option.bind_eq_bind, Option.bind_eq_some_iff, Prod.exists, nextOk_iff]
  refine ⟨?_, ?_⟩
  · rintro ⟨i, rest', ⟨p, hp, rfl⟩, h⟩
    cases i with
    | pushBytes data => cases h
    | op opcode =>
      cases h
      exact ⟨p, opcode, hp, rfl⟩
  · rintro ⟨p, opcode, hp, rfl⟩
    exact ⟨_, _, ⟨p, hp, rfl⟩, rfl⟩

/-! The forward direction, whatever follows. -/

theorem nextPushed_append (h : Encodes p (.pushBytes data)) (rest : Item) :
    nextPushed (p ++ rest) = some (data, rest) :=
  nextPushed_iff.2 ⟨p, h, rfl⟩

theorem nextDrop_append {opcode : UInt8} (h : Encodes p (.op opcode)) (rest : Item) :
    nextDrop (p ++ rest) = some rest :=
  nextDrop_iff.2 ⟨p, opcode, h, rfl⟩

theorem nextOk_self (h : Encodes p i) : nextOk p = some (i, []) :=
  nextOk_iff.2 ⟨p, h, (List.append_nil p).symm⟩

theorem nextInstruction_isSome (s : Item) : (nextInstruction s).isSome = true ↔ s ≠ [] := by
  cases s <;> simp [nextInstruction]

/-- **Acceptance.** The parser accepts the scripts that look like a record, whatever their opcodes
and the forms of their pushes. -/
theorem parseDelegationScript_iff {c k : Item} :
    parseDelegationScript s = some (c, k) ↔ ∃ l : Layout, l.LooksLike c k ∧ l.script = s := by
  refine ⟨fun h => ?_, ?_⟩
  · obtain ⟨⟨m, s₁⟩, hmarker, h⟩ := Option.bind_eq_some_iff.1 h
    obtain ⟨p₁, hp₁, hs₁⟩ := nextPushed_iff.1 hmarker
    dsimp only at h
    by_cases hm : m ≠ delegationMarker
    · rw [if_pos hm] at h
      cases h
    · rw [if_neg hm] at h
      obtain ⟨s₂, hdrop₁, h⟩ := Option.bind_eq_some_iff.1 h
      obtain ⟨p₂, o₂, hp₂, hs₂⟩ := nextDrop_iff.1 hdrop₁
      obtain ⟨⟨k', s₃⟩, hsigner, h⟩ := Option.bind_eq_some_iff.1 h
      obtain ⟨p₃, hp₃, hs₃⟩ := nextPushed_iff.1 hsigner
      obtain ⟨s₄, hdrop₂, h⟩ := Option.bind_eq_some_iff.1 h
      obtain ⟨p₄, o₄, hp₄, hs₄⟩ := nextDrop_iff.1 hdrop₂
      obtain ⟨⟨c', s₅⟩, hcontroller, h⟩ := Option.bind_eq_some_iff.1 h
      obtain ⟨p₅, hp₅, hs₅⟩ := nextPushed_iff.1 hcontroller
      obtain ⟨⟨i, s₆⟩, hlast, h⟩ := Option.bind_eq_some_iff.1 h
      obtain ⟨p₆, hp₆, hs₆⟩ := nextOk_iff.1 hlast
      dsimp only at h
      by_cases hend : (nextInstruction s₆).isSome = true
      · rw [if_pos hend] at h
        cases h
      · rw [if_neg hend] at h
        by_cases hlen : k'.length ≠ 33 ∨ c'.length ≠ 33
        · rw [if_pos hlen] at h
          cases h
        · rw [if_neg hlen] at h
          cases h
          rw [nextInstruction_isSome, not_not] at hend
          rw [not_or, not_not, not_not] at hlen
          rw [not_not] at hm
          refine ⟨⟨p₁, p₂, p₃, p₄, p₅, p₆⟩,
            ⟨hm ▸ hp₁, ⟨o₂, hp₂⟩, hp₃, ⟨o₄, hp₄⟩, hp₅, ⟨i, hp₆⟩, hlen.1, hlen.2⟩, ?_⟩
          dsimp only at hs₄ hs₆
          rw [hs₁, hs₂, hs₃, hs₄, hs₅, hs₆, hend, List.append_nil, Layout.script]
  · rintro ⟨l, hl, rfl⟩
    obtain ⟨o₂, hdrop₁⟩ := hl.drop₁
    obtain ⟨o₄, hdrop₂⟩ := hl.drop₂
    obtain ⟨i, hlast⟩ := hl.last
    simp [parseDelegationScript, Layout.script, nextPushed_append hl.marker,
      nextDrop_append hdrop₁, nextPushed_append hl.signer, nextDrop_append hdrop₂,
      nextPushed_append hl.controller, nextOk_self hlast, nextInstruction,
      hl.signer_length, hl.controller_length]

/-! ## The inverse of the builder -/

/-- **Inverse.** On a script the parser inverts the builder exactly if the script looks like a
record only by being one: whenever it is three pushes with an opcode after the first two and an
instruction after the third, these are the pieces the builder writes. -/
theorem parse_inverse_iff (s : Item) : (∀ c k, parseDelegationScript s = some (c, k) ↔
      c.length = 33 ∧ k.length = 33 ∧ s = sequentiaDelegationScript c k) ↔
      ∀ (l : Layout) (c k : Item), l.LooksLike c k → l.script = s → l = Layout.record c k := by
  refine ⟨fun hinverse l c k hl hs => ?_, fun hrecord c k => ?_⟩
  · obtain ⟨hc, hk, hbuilt⟩ := (hinverse c k).1 (parseDelegationScript_iff.2 ⟨l, hl, hs⟩)
    apply hl.script_inj (Layout.looksLike_record hc hk)
    rw [hs, hbuilt, Layout.script_record]
  · refine ⟨fun h => ?_, ?_⟩
    · obtain ⟨l, hl, hs⟩ := parseDelegationScript_iff.1 h
      refine ⟨hl.controller_length, hl.signer_length, ?_⟩
      rw [← hs, hrecord l c k hl hs, Layout.script_record]
    · rintro ⟨hc, hk, rfl⟩
      exact parseDelegationScript_iff.2 ⟨_, Layout.looksLike_record hc hk, rfl⟩

/-- Three scripts the parser takes for a record and the builder does not write: `OP_NOP` for the
first `OP_DROP`, `OP_RETURN` for `OP_CHECKSIG`, and a marker pushed with `OP_PUSHDATA1`. -/
theorem parse_accepts_lookalikes :
    let c := List.replicate 33 (2 : UInt8)
    let k := List.replicate 33 (3 : UInt8)
    let tail (drop last : UInt8) := drop :: (pushSlice k ++ 0x75 :: (pushSlice c ++ [last]))
    (∀ s ∈ [pushSlice delegationMarker ++ tail 0x61 0xac,
        pushSlice delegationMarker ++ tail 0x75 0x6a,
        0x4c :: (pushSlice delegationMarker ++ tail 0x75 0xac)],
      parseDelegationScript s = some (c, k) ∧ s ≠ sequentiaDelegationScript c k) := by
  decide

end Swk.Delegation
