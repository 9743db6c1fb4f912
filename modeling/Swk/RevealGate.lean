import Swk.Descriptor
import Swk.Json
import Swk.StateExcept

/-!
# The reveal gate

A taker who swaps Bitcoin for an asset reveals the preimage on the Sequentia side once the block
that holds the maker's funding is anchored to Bitcoin no lower than the taker's own Bitcoin funding.
Then a reorganisation of Bitcoin that undoes the one undoes the other. `find_htlc_funding` reads
where the Bitcoin funding is confirmed, and `evaluate_gate` compares the heights.

The two exchange a height in which `-1` stands for none. The gate compares it as it stands, and no
anchor is below `-1`: an open gate says that the funding is confirmed only if the explorer did.
-/

namespace Swk

/-! ## The Bitcoin leg -/

/-- A located HTLC funding output. The height is `-1` and there are no confirmations if it is
unconfirmed. -/
structure HtlcFunding where
  vout : UInt32
  valueSats : UInt64
  height : Int64
  confirmations : Int64
deriving DecidableEq

def eqIgnoreAsciiCase (s t : String) : Bool := s.toList.map Char.toLower = t.toList.map Char.toLower

/-- The first output, from index `i` on, with a script. -/
def findOutput (spkHex : String) : List Json → Nat → Option (UInt32 × UInt64)
  | [], _ => none
  | o :: rest, i =>
    if eqIgnoreAsciiCase (((o.get "scriptpubkey").bind Json.asStr).getD "") spkHex then
      some (.ofNat i, ((o.get "value").bind Json.asU64).getD 0)
    else findOutput spkHex rest (i + 1)

variable (tx : Json) {spkHex : String} {tip : Int64} {funding : HtlcFunding}
  {minDepth anchor : Int64} {nodes : Nodes}

def confirmed : Bool :=
  (((tx.get "status").bind (·.get "confirmed")).bind Json.asBool).getD false

def blockHeight : Option Int64 :=
  ((tx.get "status").bind (·.get "block_height")).bind Json.asI64

def parseHtlcFunding (p2shSpkHex : String) (tip : Int64) : Except Error HtlcFunding :=
  match (tx.get "vout").bind Json.asArray with
  | none => .error (.generic "funding tx has no vout")
  | some vouts =>
    match findOutput p2shSpkHex vouts 0 with
    | none => .error (.generic "HTLC P2SH output not found in the funding tx")
    | some (vout, valueSats) =>
      let height := if confirmed tx then (blockHeight tx).getD (-1) else -1
      let confirmations :=
        if confirmed tx && decide (0 ≤ height) && decide (height ≤ tip) then tip - height + 1
        else 0
      .ok ⟨vout, valueSats, height, confirmations⟩

/-! ## The gate -/

structure AnchorEvidence where
  seqAnchorHeight : Int64
  btcLegHeight : Int64
  btcTip : Int64
  anchorStatus : String
  depth : Int64
  ok : Bool

def evaluateGate (seqAnchorHeight : Int64) (anchorStatus : String)
    (btcTip btcLegHeight minDepth : Int64) : AnchorEvidence :=
  let depth := if 0 ≤ seqAnchorHeight then btcTip - seqAnchorHeight + 1 else -1
  { seqAnchorHeight := seqAnchorHeight
    btcLegHeight := btcLegHeight
    btcTip := btcTip
    anchorStatus := anchorStatus
    depth := depth
    ok := decide (0 ≤ seqAnchorHeight) && decide (btcLegHeight ≤ seqAnchorHeight) &&
      decide (anchorStatus = "ok") && decide (minDepth ≤ depth) }

structure Nodes where
  block : String → Except Error Json
  anchorstatus : Except Error Json
  tipHeight : Except Error Int64
  tx : String → Except Error Json

/-- `find_htlc_funding`. A tip that cannot be read is `-1`. -/
def findHtlcFunding (nodes : Nodes) (txid p2shSpkHex : String) : Except Error HtlcFunding := do
  let tx ← nodes.tx txid
  let tip := match nodes.tipHeight with
    | .ok tip => tip
    | .error _ => -1
  parseHtlcFunding tx p2shSpkHex tip

/-- The anchor of a block, `-1` if it has none. -/
def anchorHeight (block : Json) : Int64 :=
  (((block.get "bitcoin_anchor").bind (·.get "height")).bind Json.asI64).getD (-1)

def verifySeqLegSafe (nodes : Nodes) (seqBlockHash : String) (btcLegHeight minDepth : Int64) :
    Except Error AnchorEvidence := do
  let block ← nodes.block seqBlockHash
  let status ← nodes.anchorstatus
  let anchorStatus := ((status.get "anchorstatus").bind Json.asStr).getD "unknown"
  let btcTip ← nodes.tipHeight
  pure (evaluateGate (anchorHeight block) anchorStatus btcTip btcLegHeight minDepth)

/-! ## What an open gate says -/

/-- The explorer reports the transaction as confirmed, in a block of height `h`. -/
def ConfirmedAt (h : Int64) : Prop :=
  confirmed tx = true ∧ blockHeight tx = some h ∧ 0 ≤ h

/-- It is safe to reveal: the Bitcoin leg is confirmed, no higher than the anchor, and both are
`minDepth` blocks deep. -/
def SafeToReveal (seqAnchorHeight btcTip minDepth : Int64) : Prop :=
  ∃ h, ConfirmedAt tx h ∧ h ≤ seqAnchorHeight ∧
    minDepth.toInt ≤ btcTip.toInt - seqAnchorHeight.toInt + 1 ∧
    minDepth.toInt ≤ btcTip.toInt - h.toInt + 1

theorem parseHtlcFunding_ok {tx : Json} (h : parseHtlcFunding tx spkHex tip = .ok funding) :
    funding.height = (if confirmed tx then (blockHeight tx).getD (-1) else -1) ∧
      (funding.confirmations ≠ 0 → confirmed tx = true ∧ 0 ≤ funding.height) := by
  unfold parseHtlcFunding at h
  cases hvout : (tx.get "vout").bind Json.asArray with
  | none => simp [hvout] at h
  | some vouts =>
    cases hfound : findOutput spkHex vouts 0 with
    | none => simp [hvout, hfound] at h
    | some found =>
      simp only [hvout, hfound, Except.ok.injEq] at h
      subst h
      refine ⟨rfl, ?_⟩
      intro hdeep
      by_contra hnone
      refine hdeep (if_neg ?_)
      simp only [Bool.and_eq_true, decide_eq_true_eq]
      exact fun hall => hnone hall.1

theorem evaluateGate_ok_iff {leg : Int64} {status : String} :
    (evaluateGate anchor status tip leg minDepth).ok = true ↔
      0 ≤ anchor ∧ leg ≤ anchor ∧ status = "ok" ∧ minDepth ≤ tip - anchor + 1 := by
  simp only [evaluateGate, Bool.and_eq_true, decide_eq_true_eq, and_assoc]
  constructor
  · intro ⟨hanchor, hleg, hstatus, hdepth⟩
    rw [if_pos hanchor] at hdepth
    exact ⟨hanchor, hleg, hstatus, hdepth⟩
  · intro ⟨hanchor, hleg, hstatus, hdepth⟩
    rw [if_pos hanchor]
    exact ⟨hanchor, hleg, hstatus, hdepth⟩

theorem le_depth (hanchor : 0 ≤ anchor) (hle : anchor ≤ tip)
    (hdepth : minDepth ≤ tip - anchor + 1) :
    minDepth.toInt ≤ tip.toInt - anchor.toInt + 1 := by
  rw [Int64.le_iff_toInt_le, Int64.toInt_zero] at hanchor
  rw [Int64.le_iff_toInt_le] at hle
  have htip := Int64.toInt_lt tip
  have hmin := Int64.toInt_lt minDepth
  have hsub : (tip - anchor).toInt = tip.toInt - anchor.toInt := by
    rw [Int64.toInt_sub]
    apply Int.bmod_eq_of_le <;> omega
  rw [Int64.le_iff_toInt_le, Int64.toInt_add, hsub, Int64.toInt_one] at hdepth
  by_cases hlast : tip.toInt - anchor.toInt + 1 < 2 ^ 63
  · rwa [Int.bmod_eq_of_le (by omega) (by omega)] at hdepth
  · omega

theorem safe_of_confirmedAt {tx : Json} {h btcTip : Int64} {status : String}
    (hopen : (evaluateGate anchor status btcTip h minDepth).ok = true)
    (hconfirmed : ConfirmedAt tx h) (hle : anchor ≤ btcTip) :
    SafeToReveal tx anchor btcTip minDepth := by
  obtain ⟨hanchor, hleg, -, hdepth⟩ := evaluateGate_ok_iff.1 hopen
  have hdeep := le_depth hanchor hle hdepth
  refine ⟨h, hconfirmed, hleg, hdeep, ?_⟩
  rw [Int64.le_iff_toInt_le] at hleg
  omega

/-- **The reveal gate.** An open gate makes it safe to reveal if and only if the explorer has
reported the Bitcoin leg as confirmed, at a height, and the anchor is not above the Bitcoin tip. -/
theorem safeToReveal_iff (tx : Json) (spkHex : String) (tip : Int64) (funding : HtlcFunding)
    (anchor : Int64) (status : String) (btcTip minDepth : Int64)
    (hparse : parseHtlcFunding tx spkHex tip = .ok funding) (hmin : 1 ≤ minDepth)
    (hopen : (evaluateGate anchor status btcTip funding.height minDepth).ok = true) :
    SafeToReveal tx anchor btcTip minDepth ↔ (∃ h, ConfirmedAt tx h) ∧ anchor ≤ btcTip := by
  constructor
  · intro ⟨h, hconfirmed, _, hdeep, _⟩
    refine ⟨⟨h, hconfirmed⟩, ?_⟩
    rw [Int64.le_iff_toInt_le, Int64.toInt_one] at hmin
    rw [Int64.le_iff_toInt_le]
    omega
  · intro ⟨⟨h, hconfirmed⟩, hle⟩
    have hheight : funding.height = h := by
      rw [(parseHtlcFunding_ok hparse).1, if_pos hconfirmed.1, hconfirmed.2.1, Option.getD_some]
    rw [hheight] at hopen
    exact safe_of_confirmedAt hopen hconfirmed hle

def unconfirmedFunding : Json :=
  .obj [("vout", .arr [.obj [("scriptpubkey", .str "A914"), ("value", .int 50000)]]),
    ("status", .obj [("confirmed", .bool false)])]

/-- The gate opens on it: an anchor at height 90 is above `-1`. -/
theorem gate_open_unconfirmed : ∃ funding,
    parseHtlcFunding unconfirmedFunding "a914" 100 = .ok funding ∧
      (evaluateGate 90 "ok" 100 funding.height 1).ok = true ∧
      ¬ SafeToReveal unconfirmedFunding 90 100 1 := by
  refine ⟨⟨0, 50000, -1, 0⟩, by decide, by decide, ?_⟩
  intro ⟨h, hconfirmed, _⟩
  exact absurd hconfirmed.1 (by decide)

theorem safeToReveal_iff_unconfirmed : SafeToReveal unconfirmedFunding 90 100 1 ↔
    (∃ h, ConfirmedAt unconfirmedFunding h) ∧ (90 : Int64) ≤ 100 :=
  safeToReveal_iff unconfirmedFunding "a914" 100 ⟨0, 50000, -1, 0⟩ 90 "ok" 100 1
    (by decide) (by decide) (by decide)

/-! ## Against the taker's nodes -/

theorem findHtlcFunding_ok {txid : String} (h : findHtlcFunding nodes txid spkHex = .ok funding) :
    ∃ tx tip, nodes.tx txid = .ok tx ∧ parseHtlcFunding tx spkHex tip = .ok funding := by
  obtain ⟨tx, htx, h⟩ := except_bind_ok_iff.1 h
  exact ⟨tx, _, htx, h⟩

theorem verifySeqLegSafe_ok {hash : String} {leg : Int64} {evidence : AnchorEvidence}
    (h : verifySeqLegSafe nodes hash leg minDepth = .ok evidence) :
    ∃ anchor status tip, evidence = evaluateGate anchor status tip leg minDepth := by
  obtain ⟨block, -, h⟩ := except_bind_ok_iff.1 h
  obtain ⟨status, -, h⟩ := except_bind_ok_iff.1 h
  obtain ⟨tip, -, h⟩ := except_bind_ok_iff.1 h
  cases h
  exact ⟨_, _, tip, rfl⟩

theorem confirmedAt_of_confirmations {tx : Json} (h : parseHtlcFunding tx spkHex tip = .ok funding)
    (hdeep : funding.confirmations ≠ 0) : ConfirmedAt tx funding.height := by
  obtain ⟨hheight, hconfirmed⟩ := parseHtlcFunding_ok h
  obtain ⟨hconfirmed, hnonneg⟩ := hconfirmed hdeep
  rw [if_pos hconfirmed] at hheight
  refine ⟨hconfirmed, ?_, hnonneg⟩
  cases hblock : blockHeight tx with
  | none =>
    rw [hheight, hblock] at hnonneg
    exact absurd hnonneg (by decide)
  | some height => rw [hheight, hblock, Option.getD_some]

/-- A taker who also checks that the Bitcoin leg has confirmations, and that the anchor is not above
the tip, may rely on the gate. -/
theorem verifySeqLegSafe_safe {txid hash : String} {evidence : AnchorEvidence}
    (hfind : findHtlcFunding nodes txid spkHex = .ok funding)
    (hverify : verifySeqLegSafe nodes hash funding.height minDepth = .ok evidence)
    (hopen : evidence.ok = true) (hdeep : funding.confirmations ≠ 0)
    (hanchor : evidence.seqAnchorHeight ≤ evidence.btcTip) : ∃ tx, nodes.tx txid = .ok tx ∧
      SafeToReveal tx evidence.seqAnchorHeight evidence.btcTip minDepth := by
  obtain ⟨tx, tip, htx, hparse⟩ := findHtlcFunding_ok hfind
  obtain ⟨anchor, status, btcTip, rfl⟩ := verifySeqLegSafe_ok hverify
  refine ⟨tx, htx, ?_⟩
  exact safe_of_confirmedAt hopen (confirmedAt_of_confirmations hparse hdeep) hanchor

/-- Nodes that see the Bitcoin leg at height 80, below an anchor at 90 and a tip at 100. -/
def anchoredNodes : Nodes where
  block := fun _ => .ok (.obj [("bitcoin_anchor", .obj [("height", .int 90)])])
  anchorstatus := .ok (.obj [("anchorstatus", .str "ok")])
  tipHeight := .ok 100
  tx := fun _ => .ok (.obj [
    ("vout", .arr [.obj [("scriptpubkey", .str "A914"), ("value", .int 50000)]]),
    ("status", .obj [("confirmed", .bool true), ("block_height", .int 80)])])

theorem verifySeqLegSafe_safe_anchored :
    ∃ tx, anchoredNodes.tx "" = .ok tx ∧ SafeToReveal tx 90 100 6 :=
  @verifySeqLegSafe_safe "a914" ⟨0, 50000, 80, 21⟩ 6 anchoredNodes "" ""
    ⟨90, 80, 100, "ok", 11, true⟩ rfl rfl rfl (by decide) (by decide)

end Swk
