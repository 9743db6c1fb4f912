import Swk.BitcoinScript
import Swk.Covenant

/-!
# The hash time locks of a cross-chain swap

Both legs of a swap are locked by one script, on Sequentia and on Bitcoin. Whoever shows a 32-byte
preimage of the hash and signs with the claim key takes the coin; from the lock time on, the refund
key takes it back. The four builders make the transactions that do so, two on each chain.

`accepts_htlcScript` says what unlocks the script. It only looks at the operations the script parses
into, so a builder is settled by what its `scriptSig` pushes.
-/

namespace Swk

open BitcoinScript List

/-! ## The script -/

section Script

variable {Out : Type}

def checkHtlcPub (s : Signing Out) (label : String) (pk : List UInt8) : Except Error Unit := do
  require (pk.length = 33)
    (.generic (label ++ " pubkey must be 33-byte compressed, got " ++ toString pk.length))
  (s.publicKeyFromSlice pk).mapError fun e => .generic ("invalid " ++ label ++ " pubkey: " ++ e)

def htlcScript (hash claimPub refundPub : List UInt8) (locktime : UInt32) : Script :=
  -- OP_IF OP_SIZE 32 OP_EQUALVERIFY OP_SHA256 hash OP_EQUALVERIFY claim_pub OP_CHECKSIG
  0x63 :: 0x82 :: (pushInt (32 : Nat) ++ 0x88 :: 0xa8 :: (pushSlice hash ++
    0x88 :: (pushSlice claimPub ++ 0xac ::
  -- OP_ELSE locktime OP_CLTV OP_DROP refund_pub OP_CHECKSIG OP_ENDIF
    0x67 :: (pushInt locktime.toNat ++ 0xb1 :: 0x75 :: (pushSlice refundPub ++ [0xac, 0x68])))))

/-- `build_htlc_redeem_script`. The Bitcoin leg's function of that name calls this one. -/
def buildHtlcRedeemScript (s : Signing Out) (hash claimPub refundPub : List UInt8)
    (locktime : UInt32) : Except Error Script := do
  require (hash.length = 32)
    (.generic ("hashlock H must be 32 bytes, got " ++ toString hash.length))
  checkHtlcPub s "claim" claimPub
  checkHtlcPub s "refund" refundPub
  return htlcScript hash claimPub refundPub locktime

end Script

/-! ## Sequentia -/

def RawTransaction.setScriptSig {Out : Type} (tx : RawTransaction Out) (scriptSig : Script) :
    RawTransaction Out :=
  { tx with input := tx.input.modify 0 fun txin => { txin with scriptSig } }

structure SeqHtlcSpend where
  txid : String
  vout : Nat
  amount : UInt64
  assetId : String
  destSpk : Script
  fee : UInt64

variable (s : Signing TxOut)

def buildSpendTx (spend : SeqHtlcSpend) (locktime : UInt32) (refund : Bool) :
    Except Error (RawTransaction TxOut) := do
  let txid ← parseTxid s "HTLC" spend.txid
  let asset ← (s.assetIdFromStr spend.assetId).mapError fun e =>
    .generic ("invalid asset id " ++ spend.assetId ++ ": " ++ e)
  let recvValue ← okOr (checkedSub spend.amount spend.fee) (.generic "fee exceeds HTLC value")
  return {
    version := 2
    lockTime := if refund then locktime else 0
    input := [unsignedInput ⟨txid, spend.vout⟩ (if refund then 0xfffffffe else 0xffffffff)]
    output := [explicitOut asset recvValue spend.destSpk, .newFee spend.fee asset] }

/-- `sign_legacy`. The Bitcoin builders sign in the same way. -/
def signLegacy {Out : Type} (s : Signing Out) (tx : RawTransaction Out) (redeemScript : Script)
    (key : SecretKey) : List UInt8 :=
  s.signEcdsa (s.legacySighash tx 0 redeemScript) key ++ [sighashAllByte]

def pushDataMinimal : Item → Item
  | [] => [0x00]
  | [v] =>
    if v = 0x00 then [0x00]
    else if 1 ≤ v ∧ v ≤ 16 then [0x51 - 1 + v]
    else if v = 0x81 then [0x4f]
    else pushSlice [v]
  | data => pushSlice data

/-- `finalize`, up to the serialisation. -/
def finalize (tx : RawTransaction TxOut) (redeemScript : Script) (items : List Item) :
    RawTransaction TxOut :=
  tx.setScriptSig (items.flatMap pushDataMinimal ++ pushSlice redeemScript)

/-- `build_claim_tx` of the Sequentia leg. -/
def buildClaimTx (spend : SeqHtlcSpend) (redeemScript : Script) (claimSecret : SecretKey)
    (preimage : List UInt8) : Except Error (RawTransaction TxOut) := do
  require (preimage.length = 32)
    (.generic ("preimage must be 32 bytes, got " ++ toString preimage.length))
  let tx ← buildSpendTx s spend 0 false
  let sig := signLegacy s tx redeemScript claimSecret
  return finalize tx redeemScript [sig, preimage, [0x01]]

/-- `build_refund_tx` of the Sequentia leg. -/
def buildRefundTx (spend : SeqHtlcSpend) (redeemScript : Script) (refundSecret : SecretKey)
    (locktime : UInt32) : Except Error (RawTransaction TxOut) := do
  let tx ← buildSpendTx s spend locktime true
  let sig := signLegacy s tx redeemScript refundSecret
  return finalize tx redeemScript [sig, []]

/-! ## Bitcoin -/

namespace Btc

structure TxOut where
  value : UInt64
  scriptPubkey : Script
deriving DecidableEq

structure BtcHtlcSpend where
  txid : String
  vout : Nat
  amountSats : UInt64
  destSpk : Script
  feeSats : UInt64

/-- `push_bytes`, and the push of what it returns. -/
def pushBytes (data : Item) : Except Error Item :=
  if data.length < 2 ^ 32 then .ok (pushSlice data)
  else .error (.generic ("PushBytesError \x7b len: " ++ toString data.length ++ " \x7d"))

variable (s : Signing TxOut)

/-- What the two builders do before they sign. The third-party error shows as `{e:?}`. -/
def spendTx (what : String) (spend : BtcHtlcSpend)
    (locktime sequence : UInt32) : Except Error (RawTransaction TxOut) := do
  let outValue ← okOr (checkedSub spend.amountSats spend.feeSats)
    (.generic "fee exceeds the HTLC amount")
  require (outValue ≠ 0) (.generic (what ++ " output is zero after fee"))
  let txid ← (s.txidFromStr spend.txid).mapError .generic
  return {
    version := 2
    lockTime := locktime
    input := [unsignedInput ⟨txid, spend.vout⟩ sequence]
    output := [⟨outValue, spend.destSpk⟩] }

/-- `build_refund_tx` of the Bitcoin leg. -/
def buildRefundTx (redeem : Script) (spend : BtcHtlcSpend) (locktime : UInt32)
    (refundSk : SecretKey) : Except Error (RawTransaction TxOut) := do
  let tx ← spendTx s "refund" spend locktime 0xfffffffd
  let sig ← pushBytes (signLegacy s tx redeem refundSk)
  let script ← pushBytes redeem
  return tx.setScriptSig (sig ++ [0x00] ++ script)

/-- `build_claim_tx` of the Bitcoin leg. The length of the preimage is not checked. -/
def buildClaimTx (redeem : Script) (spend : BtcHtlcSpend) (preimage : List UInt8)
    (claimSk : SecretKey) : Except Error (RawTransaction TxOut) := do
  let tx ← spendTx s "claim" spend 0 0xffffffff
  let sig ← pushBytes (signLegacy s tx redeem claimSk)
  let secret ← pushBytes preimage
  let script ← pushBytes redeem
  return tx.setScriptSig (sig ++ secret ++ [0x51] ++ script)

end Btc

/-! ## What unlocks the script -/

/-- A stack that takes the claim branch and satisfies it. -/
def HtlcClaims (ctx : Context) (hash claimPub : Item) (stack : List Item) : Prop :=
  ∃ top preimage sig rest, stack = top :: preimage :: sig :: rest ∧ truthy top = true ∧
    preimage.length = 32 ∧ ctx.sha256 preimage = hash ∧ ctx.checkSig sig claimPub = true

/-- A stack that takes the refund branch and satisfies it. -/
def HtlcRefunds (ctx : Context) (refundPub : Item) (locktime : UInt32) (stack : List Item) : Prop :=
  ∃ top sig rest, stack = top :: sig :: rest ∧ truthy top = false ∧
    ctx.LockReached locktime.toNat ∧ ctx.checkSig sig refundPub = true

def claimOps (hash claimPub : Item) : List Op :=
  [.size, .push (buildScriptint (32 : Nat)), .equalverify, .sha256, .push hash, .equalverify,
    .push claimPub, .checksig]

def refundOps (locktime : UInt32) (refundPub : Item) : List Op :=
  [.push (buildScriptint locktime.toNat), .checklocktimeverify, .drop, .push refundPub, .checksig]

section Meaning

variable {hash claimPub refundPub : Item} {locktime : UInt32} {ctx : Context} {stack : List Item}

theorem checksig_run {key : Item} :
    (∃ top rest, exec ctx .checksig (key :: stack) = some (top :: rest) ∧ truthy top = true) ↔
      ∃ sig rest, stack = sig :: rest ∧ ctx.checkSig sig key = true := by
  cases stack with
  | nil => simp
  | cons sig rest =>
    cases hvalid : ctx.checkSig sig key with
    | false => simp [hvalid, truthy]
    | true => simp [hvalid, truthy]

theorem claimOps_run :
    (∃ top rest, (claimOps hash claimPub).foldlM (fun s op => exec ctx op s) stack =
      some (top :: rest) ∧ truthy top = true) ↔
      ∃ preimage sig rest, stack = preimage :: sig :: rest ∧ preimage.length = 32 ∧
        ctx.sha256 preimage = hash ∧ ctx.checkSig sig claimPub = true := by
  cases stack with
  | nil => simp [claimOps]
  | cons preimage stack =>
    by_cases hlength : preimage.length = 32
    · by_cases hhash : ctx.sha256 preimage = hash
      · have hrun : (claimOps hash claimPub).foldlM (fun s op => exec ctx op s)
            (preimage :: stack) = exec ctx .checksig (claimPub :: stack) := by
          subst hhash
          simp [claimOps, hlength]
        rw [hrun, checksig_run]
        simp [hlength, hhash]
      · have hne : ¬ hash = ctx.sha256 preimage := fun h => hhash h.symm
        simp [claimOps, hlength, hhash, hne]
    · have hne : ¬ buildScriptint 32 = buildScriptint preimage.length := by
        intro h
        exact hlength (buildScriptint_injective (m := 32) h).symm
      simp [claimOps, hlength, hne]

theorem refundOps_run :
    (∃ top rest, (refundOps locktime refundPub).foldlM (fun s op => exec ctx op s) stack =
      some (top :: rest) ∧ truthy top = true) ↔
      ctx.LockReached locktime.toNat ∧
        ∃ sig rest, stack = sig :: rest ∧ ctx.checkSig sig refundPub = true := by
  have hnum : scriptNum 5 (buildScriptint locktime.toNat) = some (locktime.toNat : Int) :=
    @scriptNum_buildScriptint _ 4 locktime.toNat_lt (by decide)
  by_cases hlock : ctx.LockReached locktime.toNat
  · have hrun : (refundOps locktime refundPub).foldlM (fun s op => exec ctx op s) stack =
        exec ctx .checksig (refundPub :: stack) := by
      simp [refundOps, exec_checklocktimeverify _ _ hnum, hlock]
    rw [hrun, checksig_run]
    simp [hlock]
  · simp [refundOps, exec_checklocktimeverify _ _ hnum, hlock]

/-- What the builder of the script checks. -/
structure HtlcSizes (hash claimPub refundPub : Item) : Prop where
  hash : hash.length = 32
  claim : claimPub.length = 33
  refund : refundPub.length = 33

/-- A script that a claim with a 32-byte preimage unlocks, and a refund once the lock time is
reached. -/
structure IsHtlc (redeem : Script) (hash claimPub refundPub : Item) (locktime : UInt32) : Prop where
  length_lt : redeem.length < 2 ^ 32
  accepts_iff : ∀ ctx stack, accepts ctx redeem stack = true ↔
    HtlcClaims ctx hash claimPub stack ∨ HtlcRefunds ctx refundPub locktime stack

variable (hsizes : HtlcSizes hash claimPub refundPub)

include hsizes

theorem length_htlcScript :
    (htlcScript hash claimPub refundPub locktime).length < 2 ^ 32 := by
  obtain ⟨hhash, hclaim, hrefund⟩ := hsizes
  have hsize := @length_pushInt 32 (by decide)
  have hlock := length_pushInt locktime.toNat_lt
  have h₁ := length_pushSlice hash
  have h₂ := length_pushSlice claimPub
  have h₃ := length_pushSlice refundPub
  simp only [htlcScript, length_cons, length_append, length_nil]
  omega

theorem parse_htlcScript : parse (htlcScript hash claimPub refundPub locktime) =
      some (.opIf :: claimOps hash claimPub ++ .opElse :: refundOps locktime refundPub ++
        [.opEndif]) := by
  obtain ⟨hhash, hclaim, hrefund⟩ := hsizes
  have hlock : locktime.toNat < 2 ^ 32 := locktime.toNat_lt
  unfold htlcScript
  rw [parse_opIf, parse_size, parse_pushInt (by decide), parse_equalverify, parse_sha256,
    parse_pushSlice (by omega), parse_equalverify, parse_pushSlice (by omega), parse_checksig,
    parse_opElse, parse_pushInt hlock, parse_checklocktimeverify, parse_drop,
    parse_pushSlice (by omega), parse_checksig, parse_opEndif, parse_nil]
  rfl

/-- **What unlocks the script.** -/
theorem isHtlc_htlcScript :
    IsHtlc (htlcScript hash claimPub refundPub locktime) hash claimPub refundPub locktime := by
  refine ⟨length_htlcScript hsizes, fun ctx stack => ?_⟩
  have hclaimStraight : ∀ op ∈ claimOps hash claimPub, op.Straight := by
    simp [claimOps, Op.Straight]
  have hrefundStraight : ∀ op ∈ refundOps locktime refundPub, op.Straight := by
    simp [refundOps, Op.Straight]
  rw [accepts_ifElse (parse_htlcScript hsizes) hclaimStraight hrefundStraight]
  constructor
  · rintro ⟨top, rest, hstack, hrun⟩
    cases htop : truthy top with
    | true =>
      rw [htop, if_pos rfl, claimOps_run] at hrun
      obtain ⟨preimage, sig, rest', hrest, hclaims⟩ := hrun
      exact .inl ⟨top, preimage, sig, rest', by rw [hstack, hrest], htop, hclaims⟩
    | false =>
      rw [htop, if_neg Bool.false_ne_true, refundOps_run] at hrun
      obtain ⟨hlock, sig, rest', hrest, hsig⟩ := hrun
      exact .inr ⟨top, sig, rest', by rw [hstack, hrest], htop, hlock, hsig⟩
  · rintro (⟨top, preimage, sig, rest, hstack, htop, hclaims⟩ |
      ⟨top, sig, rest, hstack, htop, hlock, hsig⟩)
    · refine ⟨top, preimage :: sig :: rest, hstack, ?_⟩
      rw [htop, if_pos rfl]
      exact claimOps_run.2 ⟨preimage, sig, rest, rfl, hclaims⟩
    · refine ⟨top, sig :: rest, hstack, ?_⟩
      rw [htop, if_neg Bool.false_ne_true]
      exact refundOps_run.2 ⟨hlock, sig, rest, rfl, hsig⟩

/-- **Different locks have different scripts**: the script is parsed back into its four values. -/
theorem htlcScript_injective {hash' claimPub' refundPub' : Item} {locktime' : UInt32}
    (hsizes' : HtlcSizes hash' claimPub' refundPub')
    (h : htlcScript hash claimPub refundPub locktime =
      htlcScript hash' claimPub' refundPub' locktime') :
    hash = hash' ∧ claimPub = claimPub' ∧ refundPub = refundPub' ∧ locktime = locktime' := by
  have hparse := @parse_htlcScript hash claimPub refundPub locktime hsizes
  rw [h, parse_htlcScript hsizes'] at hparse
  simp only [claimOps, refundOps, Option.some.injEq, cons_append, nil_append,
    cons.injEq, Op.push.injEq, true_and, and_true] at hparse
  obtain ⟨hhashes, hclaims, hlocks, hrefunds⟩ := hparse
  exact ⟨hhashes.symm, hclaims.symm, hrefunds.symm,
    (UInt32.toNat_inj.1 (buildScriptint_injective hlocks)).symm⟩

end Meaning

/-! ## What the builders make -/

structure ChainRules (Out : Type) where
  sha256 : Item → Item
  /-- Whether a signature is valid for a key, an input of a transaction and the script it runs. -/
  checkSig : RawTransaction Out → Nat → Script → Item → Item → Bool

def ChainRules.context {Out : Type} (c : ChainRules Out) (tx : RawTransaction Out)
    (redeem : Script) (txin : RawTxIn) : Context :=
  ⟨c.sha256, c.checkSig tx 0 redeem, tx.lockTime, txin.sequence⟩

/-- The transaction's one input spends an output that is locked by the redeem script. -/
def ChainRules.Spends {Out : Type} (c : ChainRules Out) (redeem : Script) (outpoint : OutPoint)
    (tx : RawTransaction Out) : Prop :=
  ∃ txin, tx.input = [txin] ∧ txin.previousOutput = outpoint ∧
    spends (c.context tx redeem txin) redeem txin.scriptSig = true

/-- What signing is for: a signature is valid for its key and for the transaction it was made over,
whatever script its input is then given, and DER takes at most 72 bytes. -/
structure Signing.AcceptedBy {Out : Type} (s : Signing Out) (c : ChainRules Out) : Prop where
  valid : ∀ tx redeem key scriptSig, c.checkSig (tx.setScriptSig scriptSig) 0 redeem
    (s.signEcdsa (s.legacySighash tx 0 redeem) key ++ [sighashAllByte]) (s.publicKey key) = true
  length_le : ∀ digest key, (s.signEcdsa digest key).length ≤ 72

/-- A refund at a lock time meets the one of the script. -/
def LockCovers (locktime lockTime : UInt32) : Prop :=
  ((lockTime.toNat : Int) < lockTimeThreshold ↔ (locktime.toNat : Int) < lockTimeThreshold) ∧
    locktime.toNat ≤ lockTime.toNat

/-- The transaction spends the output that the spend names, and pays what the fee leaves of it. -/
def SeqHtlcSpend.TakenBy (spend : SeqHtlcSpend) (s : Signing TxOut) (c : ChainRules TxOut)
    (redeem : Script) (tx : RawTransaction TxOut) : Prop :=
  ∃ txid asset value, s.txidFromStr spend.txid = .ok txid ∧
    s.assetIdFromStr spend.assetId = .ok asset ∧
    value.toNat + spend.fee.toNat = spend.amount.toNat ∧
    tx.output = [explicitOut asset value spend.destSpk, .newFee spend.fee asset] ∧
    c.Spends redeem ⟨txid, spend.vout⟩ tx

/-- The same on Bitcoin, where the fee is what no output takes. -/
def Btc.BtcHtlcSpend.TakenBy (spend : Btc.BtcHtlcSpend) (s : Signing Btc.TxOut)
    (c : ChainRules Btc.TxOut) (redeem : Script) (tx : RawTransaction Btc.TxOut) : Prop :=
  ∃ txid value, s.txidFromStr spend.txid = .ok txid ∧
    value.toNat + spend.feeSats.toNat = spend.amountSats.toNat ∧
    tx.output = [⟨value, spend.destSpk⟩] ∧ c.Spends redeem ⟨txid, spend.vout⟩ tx

section Builders

variable {Out : Type} {s : Signing Out} {c : ChainRules Out} {tx : RawTransaction Out}
  {redeem : Script} {hash claimPub refundPub scriptSig preimage : Item}
  {locktime sequence : UInt32} {outpoint : OutPoint} {key : SecretKey}

theorem parse_pushDataMinimal {data rest : Item} (hzero : data ≠ [0x00])
    (hlength : data.length < 2 ^ 32) :
    parse (pushDataMinimal data ++ rest) = (parse rest).map (.push data :: ·) := by
  fun_cases pushDataMinimal data with
  | case1 => exact @parse_pushSlice rest [] (by decide)
  | case2 => exact absurd rfl hzero
  | case3 v hne hsmall =>
    have hv : v = UInt8.ofNat v.toNat := UInt8.ofNat_toNat.symm
    have hpos : 1 ≤ v.toNat := UInt8.le_iff_toNat_le.1 hsmall.1
    have hle : v.toNat ≤ 16 := UInt8.le_iff_toNat_le.1 hsmall.2
    rw [hv]
    generalize v.toNat = n at hpos hle
    refine parse_op fun rest => ?_
    interval_cases n <;> rfl
  | case4 => exact parse_op fun _ => rfl
  | case5 v => exact parse_pushSlice hlength
  | case6 data => exact parse_pushSlice hlength

theorem parse_pushSlice_last {data : Item} (h : data.length < 2 ^ 32) :
    parse (pushSlice data) = some [.push data] := by
  have hpush := @parse_pushSlice [] data h
  rwa [append_nil, parse_nil] at hpush

theorem spends_setScriptSig (items : List Item)
    (hinput : tx.input = [unsignedInput outpoint sequence])
    (hparse : parse scriptSig = some ((items ++ [redeem]).map .push)) :
    c.Spends redeem outpoint (tx.setScriptSig scriptSig) ↔
      accepts ⟨c.sha256, c.checkSig (tx.setScriptSig scriptSig) 0 redeem, tx.lockTime, sequence⟩
        redeem items.reverse = true := by
  have hset : (tx.setScriptSig scriptSig).input = [⟨outpoint, scriptSig, sequence, []⟩] := by
    unfold RawTransaction.setScriptSig
    simp [hinput, unsignedInput]
  rw [← spends_of_parse hparse]
  unfold ChainRules.Spends
  constructor
  · rintro ⟨txin, hone, -, hspends⟩
    rw [hset] at hone
    cases hone
    exact hspends
  · intro hspends
    exact ⟨_, hset, rfl, hspends⟩

theorem signLegacy_ne_zero : signLegacy s tx redeem key ≠ [0x00] := by
  intro h
  have hlast := congrArg getLast? h
  simp [signLegacy, sighashAllByte] at hlast

theorem length_signLegacy (hs : s.AcceptedBy c) :
    (signLegacy s tx redeem key).length < 2 ^ 32 := by
  have hder := hs.length_le (s.legacySighash tx 0 redeem) key
  simp only [signLegacy, length_append, length_singleton]
  omega

variable (hs : s.AcceptedBy c) (hlock : IsHtlc redeem hash claimPub refundPub locktime)
  (hinput : tx.input = [unsignedInput outpoint sequence])

include hs hlock hinput

theorem claim_spends_iff (hkey : s.publicKey key = claimPub) (hpreimage : c.sha256 preimage = hash)
    (hparse : parse scriptSig =
      some ([signLegacy s tx redeem key, preimage, [1], redeem].map .push)) :
    c.Spends redeem outpoint (tx.setScriptSig scriptSig) ↔ preimage.length = 32 := by
  rw [spends_setScriptSig [_, preimage, [1]] hinput hparse, hlock.accepts_iff]
  constructor
  · rintro (⟨top, preimage', sig, rest, hstack, -, hlength, -⟩ | ⟨top, sig, rest, hstack, htop, -⟩)
    · cases hstack
      exact hlength
    · cases hstack
      cases htop
  · intro hlength
    refine .inl ⟨[1], preimage, _, [], rfl, rfl, hlength, hpreimage, ?_⟩
    rw [← hkey]
    exact hs.valid _ _ _ _

theorem refund_spends_iff (hkey : s.publicKey key = refundPub) (hsequence : sequence ≠ 0xffffffff)
    (hparse : parse scriptSig = some ([signLegacy s tx redeem key, [], redeem].map .push)) :
    c.Spends redeem outpoint (tx.setScriptSig scriptSig) ↔ LockCovers locktime tx.lockTime := by
  rw [spends_setScriptSig [_, []] hinput hparse, hlock.accepts_iff]
  constructor
  · rintro (⟨top, preimage', sig, rest, hstack, htop, -⟩ |
      ⟨top, sig, rest, hstack, htop, ⟨hkind, hle, -⟩, -⟩)
    · cases hstack
    · exact ⟨hkind, Int.ofNat_le.1 hle⟩
  · rintro ⟨hkind, hle⟩
    refine .inr ⟨[], _, [], rfl, rfl, ⟨hkind, Int.ofNat_le.2 hle, hsequence⟩, ?_⟩
    rw [← hkey]
    exact hs.valid _ _ _ _

end Builders

section Sequentia

variable {s : Signing TxOut} {c : ChainRules TxOut} {tx : RawTransaction TxOut}
  {spend : SeqHtlcSpend} {redeem : Script} {hash claimPub refundPub preimage : Item}
  {locktime lockTime : UInt32} {key : SecretKey} {refund : Bool}

theorem buildSpendTx_ok (h : buildSpendTx s spend lockTime refund = .ok tx) :
    ∃ txid asset value, s.txidFromStr spend.txid = .ok txid ∧
      s.assetIdFromStr spend.assetId = .ok asset ∧
      value.toNat + spend.fee.toNat = spend.amount.toNat ∧
      tx.lockTime = (if refund then lockTime else 0) ∧
      tx.input = [unsignedInput ⟨txid, spend.vout⟩ (if refund then 0xfffffffe else 0xffffffff)] ∧
      tx.output = [explicitOut asset value spend.destSpk, .newFee spend.fee asset] := by
  obtain ⟨txid, htxid, h⟩ := except_bind_ok_iff.1 h
  obtain ⟨asset, hasset, h⟩ := except_bind_ok_iff.1 h
  obtain ⟨value, hvalue, h⟩ := except_bind_ok_iff.1 h
  cases h
  have hid : s.txidFromStr spend.txid = .ok txid := by
    unfold parseTxid at htxid
    cases hid : s.txidFromStr spend.txid with
    | ok id =>
      rw [hid] at htxid
      cases htxid
      rfl
    | error e =>
      rw [hid] at htxid
      cases htxid
  exact ⟨txid, asset, value, hid, mapError_ok_iff.1 hasset,
    checkedSub_eq_some (okOr_ok_iff.1 hvalue), rfl, rfl, rfl⟩

/-- What `finalize` puts in the input is parsed as the items and the redeem script. -/
theorem parse_finalize {items : List Item} (hredeem : redeem.length < 2 ^ 32)
    (hitems : ∀ item ∈ items, item ≠ [0x00] ∧ item.length < 2 ^ 32) :
    parse (items.flatMap pushDataMinimal ++ pushSlice redeem) =
      some ((items ++ [redeem]).map .push) := by
  induction items with
  | nil => exact parse_pushSlice_last hredeem
  | cons item items ih =>
    rw [forall_mem_cons] at hitems
    rw [flatMap_cons, append_assoc, parse_pushDataMinimal hitems.1.1 hitems.1.2, ih hitems.2]
    rfl

variable (hs : s.AcceptedBy c) (hlock : IsHtlc redeem hash claimPub refundPub locktime)

include hs hlock

theorem buildClaimTx_takes (hkey : s.publicKey key = claimPub)
    (hpreimage : c.sha256 preimage = hash) (h : buildClaimTx s spend redeem key preimage = .ok tx) :
    spend.TakenBy s c redeem tx := by
  obtain ⟨_, hrequire, h⟩ := except_bind_ok_iff.1 h
  obtain ⟨tx₀, htx₀, h⟩ := except_bind_ok_iff.1 h
  cases h
  have hlength : preimage.length = 32 := by simpa using require_ok_iff.1 hrequire
  obtain ⟨txid, asset, value, htxid, hasset, hvalue, -, hinput, houtput⟩ := buildSpendTx_ok htx₀
  refine ⟨txid, asset, value, htxid, hasset, hvalue, houtput, ?_⟩
  refine (claim_spends_iff hs hlock hinput hkey hpreimage ?_).2 hlength
  refine parse_finalize hlock.length_lt ?_
  intro item hitem
  simp only [mem_cons, not_mem_nil, or_false] at hitem
  rcases hitem with rfl | rfl | rfl
  · exact ⟨signLegacy_ne_zero, length_signLegacy hs⟩
  · refine ⟨?_, by omega⟩
    rintro rfl
    simp at hlength
  · decide

theorem buildRefundTx_takes_iff (hkey : s.publicKey key = refundPub)
    (h : buildRefundTx s spend redeem key lockTime = .ok tx) :
    spend.TakenBy s c redeem tx ↔ LockCovers locktime lockTime := by
  obtain ⟨tx₀, htx₀, h⟩ := except_bind_ok_iff.1 h
  cases h
  obtain ⟨txid, asset, value, htxid, hasset, hvalue, htime, hinput, houtput⟩ := buildSpendTx_ok htx₀
  have hitems : ∀ item ∈ [signLegacy s tx₀ redeem key, []],
      item ≠ [0x00] ∧ item.length < 2 ^ 32 := by
    intro item hitem
    simp only [mem_cons, not_mem_nil, or_false] at hitem
    rcases hitem with rfl | rfl
    · exact ⟨signLegacy_ne_zero, length_signLegacy hs⟩
    · decide
  have hspends := refund_spends_iff hs hlock hinput hkey (by decide)
    (parse_finalize hlock.length_lt hitems)
  rw [htime, if_pos rfl] at hspends
  rw [← hspends]
  constructor
  · rintro ⟨txid', _, _, htxid', -, -, -, htaken⟩
    cases htxid.symm.trans htxid'
    exact htaken
  · intro htaken
    exact ⟨txid, asset, value, htxid, hasset, hvalue, houtput, htaken⟩

end Sequentia

section Bitcoin

variable {s : Signing Btc.TxOut} {c : ChainRules Btc.TxOut} {tx tx' : RawTransaction Btc.TxOut}
  {spend : Btc.BtcHtlcSpend} {redeem : Script} {hash claimPub refundPub preimage : Item}
  {locktime lockTime sequence : UInt32} {key : SecretKey}

theorem pushBytes_ok {data pushed : Item} (h : Btc.pushBytes data = .ok pushed) :
    data.length < 2 ^ 32 ∧ pushed = pushSlice data := by
  unfold Btc.pushBytes at h
  by_cases hlength : data.length < 2 ^ 32
  · rw [if_pos hlength] at h
    cases h
    exact ⟨hlength, rfl⟩
  · rw [if_neg hlength] at h
    cases h

theorem spendTx_ok {what : String} (h : Btc.spendTx s what spend lockTime sequence = .ok tx) :
    ∃ txid, tx.lockTime = lockTime ∧ tx.input = [unsignedInput ⟨txid, spend.vout⟩ sequence] ∧
      ∀ redeem scriptSig, spend.TakenBy s c redeem (tx.setScriptSig scriptSig) ↔
        c.Spends redeem ⟨txid, spend.vout⟩ (tx.setScriptSig scriptSig) := by
  obtain ⟨value, hvalue, h⟩ := except_bind_ok_iff.1 h
  obtain ⟨_, -, h⟩ := except_bind_ok_iff.1 h
  obtain ⟨txid, htxid, h⟩ := except_bind_ok_iff.1 h
  cases h
  refine ⟨txid, rfl, rfl, ?_⟩
  intro redeem scriptSig
  constructor
  · rintro ⟨txid', _, htxid', -, -, htaken⟩
    cases (mapError_ok_iff.1 htxid).symm.trans htxid'
    exact htaken
  · intro htaken
    exact ⟨txid, value, mapError_ok_iff.1 htxid, checkedSub_eq_some (okOr_ok_iff.1 hvalue), rfl,
      htaken⟩

variable (hs : s.AcceptedBy c) (hlock : IsHtlc redeem hash claimPub refundPub locktime)

include hs hlock

theorem btcClaimTx_takes_iff (hkey : s.publicKey key = claimPub)
    (hpreimage : c.sha256 preimage = hash)
    (h : Btc.buildClaimTx s redeem spend preimage key = .ok tx) :
    spend.TakenBy s c redeem tx ↔ preimage.length = 32 := by
  obtain ⟨tx₀, htx₀, h⟩ := except_bind_ok_iff.1 h
  obtain ⟨sig, hsig, h⟩ := except_bind_ok_iff.1 h
  obtain ⟨secret, hsecret, h⟩ := except_bind_ok_iff.1 h
  obtain ⟨script, hscript, h⟩ := except_bind_ok_iff.1 h
  cases h
  obtain ⟨hsigLength, rfl⟩ := pushBytes_ok hsig
  obtain ⟨hsecretLength, rfl⟩ := pushBytes_ok hsecret
  obtain ⟨hscriptLength, rfl⟩ := pushBytes_ok hscript
  obtain ⟨txid, -, hinput, htaken⟩ := spendTx_ok (c := c) htx₀
  rw [htaken]
  refine claim_spends_iff hs hlock hinput hkey hpreimage ?_
  have hone : ∀ rest, parse (0x51 :: rest) = (parse rest).map (.push [1] :: ·) :=
    fun rest => parse_op fun _ => rfl
  rw [append_assoc, append_assoc, parse_pushSlice hsigLength,
    parse_pushSlice hsecretLength, singleton_append, hone,
    parse_pushSlice_last hscriptLength]
  rfl

theorem btcRefundTx_takes_iff (hkey : s.publicKey key = refundPub)
    (h : Btc.buildRefundTx s redeem spend lockTime key = .ok tx) :
    spend.TakenBy s c redeem tx ↔ LockCovers locktime lockTime := by
  obtain ⟨tx₀, htx₀, h⟩ := except_bind_ok_iff.1 h
  obtain ⟨sig, hsig, h⟩ := except_bind_ok_iff.1 h
  obtain ⟨script, hscript, h⟩ := except_bind_ok_iff.1 h
  cases h
  obtain ⟨hsigLength, rfl⟩ := pushBytes_ok hsig
  obtain ⟨hscriptLength, rfl⟩ := pushBytes_ok hscript
  obtain ⟨txid, htime, hinput, htaken⟩ := spendTx_ok (c := c) htx₀
  rw [htaken, ← htime]
  refine refund_spends_iff hs hlock hinput hkey (by decide) ?_
  have hzero : ∀ rest, parse (0x00 :: rest) = (parse rest).map (.push [] :: ·) :=
    fun rest => @parse_pushSlice rest [] (by decide)
  rw [append_assoc, parse_pushSlice hsigLength, singleton_append, hzero,
    parse_pushSlice_last hscriptLength]
  rfl

end Bitcoin

/-! ## Both legs -/

theorem buildHtlcRedeemScript_ok_iff {Out : Type} {s : Signing Out}
    {hash claimPub refundPub : Item} {locktime : UInt32} {redeem : Script} :
    buildHtlcRedeemScript s hash claimPub refundPub locktime = .ok redeem ↔
      hash.length = 32 ∧ (claimPub.length = 33 ∧ s.publicKeyFromSlice claimPub = .ok ()) ∧
        (refundPub.length = 33 ∧ s.publicKeyFromSlice refundPub = .ok ()) ∧
        htlcScript hash claimPub refundPub locktime = redeem := by
  have hpub : ∀ label pk, checkHtlcPub s label pk = .ok () ↔
      pk.length = 33 ∧ s.publicKeyFromSlice pk = .ok () := by
    intro label pk
    unfold checkHtlcPub
    simp [except_bind_ok_iff, require_ok_iff, mapError_ok_iff]
  unfold buildHtlcRedeemScript
  simp [except_bind_ok_iff, require_ok_iff, hpub, pure, Except.pure]

/-- **The lock means what it should, and its spends unlock it.** The script accepts a claim with a
32-byte preimage and a refund from its lock time on, and nothing else; it determines its four
values; and what the four builders return for it spends it: a refund when its lock time meets the
script's, a claim on Bitcoin, where the length is not checked, when the preimage has 32 bytes. -/
theorem htlc_unlocked_by_builders {seq : Signing TxOut} {seqRules : ChainRules TxOut}
    {btc : Signing Btc.TxOut} {btcRules : ChainRules Btc.TxOut} (hseq : seq.AcceptedBy seqRules)
    (hbtc : btc.AcceptedBy btcRules) :
    (∀ hash claimPub refundPub locktime, hash.length = 32 → claimPub.length = 33 →
      refundPub.length = 33 → seq.publicKeyFromSlice claimPub = .ok () →
      seq.publicKeyFromSlice refundPub = .ok () →
      ∃ redeem, buildHtlcRedeemScript seq hash claimPub refundPub locktime = .ok redeem ∧
        (∀ ctx stack, accepts ctx redeem stack = true ↔
          HtlcClaims ctx hash claimPub stack ∨ HtlcRefunds ctx refundPub locktime stack) ∧
        (∀ spend key preimage tx, seq.publicKey key = claimPub → seqRules.sha256 preimage = hash →
          buildClaimTx seq spend redeem key preimage = .ok tx →
          spend.TakenBy seq seqRules redeem tx) ∧
        (∀ spend key lockTime tx, seq.publicKey key = refundPub →
          buildRefundTx seq spend redeem key lockTime = .ok tx →
          (spend.TakenBy seq seqRules redeem tx ↔ LockCovers locktime lockTime)) ∧
        (∀ spend key preimage tx, btc.publicKey key = claimPub → btcRules.sha256 preimage = hash →
          Btc.buildClaimTx btc redeem spend preimage key = .ok tx →
          (spend.TakenBy btc btcRules redeem tx ↔ preimage.length = 32)) ∧
        (∀ spend key lockTime tx, btc.publicKey key = refundPub →
          Btc.buildRefundTx btc redeem spend lockTime key = .ok tx →
          (spend.TakenBy btc btcRules redeem tx ↔ LockCovers locktime lockTime))) ∧
    ∀ hash claimPub refundPub locktime hash' claimPub' refundPub' locktime' redeem,
      buildHtlcRedeemScript seq hash claimPub refundPub locktime = .ok redeem →
      buildHtlcRedeemScript seq hash' claimPub' refundPub' locktime' = .ok redeem →
      hash = hash' ∧ claimPub = claimPub' ∧ refundPub = refundPub' ∧ locktime = locktime' := by
  refine ⟨?_, ?_⟩
  · intro hash claimPub refundPub locktime hhash hclaim hrefund hclaimKey hrefundKey
    have hlock := @isHtlc_htlcScript hash claimPub refundPub locktime ⟨hhash, hclaim, hrefund⟩
    refine ⟨htlcScript hash claimPub refundPub locktime,
      buildHtlcRedeemScript_ok_iff.2 ⟨hhash, ⟨hclaim, hclaimKey⟩, ⟨hrefund, hrefundKey⟩, rfl⟩,
      ?_, ?_, ?_, ?_, ?_⟩
    · exact hlock.accepts_iff
    · intro spend key preimage tx hkey hpreimage htx
      exact buildClaimTx_takes hseq hlock hkey hpreimage htx
    · intro spend key lockTime tx hkey htx
      exact buildRefundTx_takes_iff hseq hlock hkey htx
    · intro spend key preimage tx hkey hpreimage htx
      exact btcClaimTx_takes_iff hbtc hlock hkey hpreimage htx
    · intro spend key lockTime tx hkey htx
      exact btcRefundTx_takes_iff hbtc hlock hkey htx
  · intro hash claimPub refundPub locktime hash' claimPub' refundPub' locktime' redeem h h'
    obtain ⟨hhash, hclaim, hrefund, hscript⟩ := buildHtlcRedeemScript_ok_iff.1 h
    obtain ⟨hhash', hclaim', hrefund', hscript'⟩ := buildHtlcRedeemScript_ok_iff.1 h'
    exact htlcScript_injective ⟨hhash, hclaim.1, hrefund.1⟩ ⟨hhash', hclaim'.1, hrefund'.1⟩
      (hscript.trans hscript'.symm)

namespace SampleLock

open Concrete (signing)

def rules (Out : Type) : ChainRules Out where
  sha256 := fun item => item.reverse
  checkSig := fun _ _ _ sig key => sig = [0x30, 0x00, 0x01] && key = List.replicate 33 2

theorem accepted (Out : Type) : (signing Out).AcceptedBy (rules Out) :=
  ⟨fun _ _ _ _ => by simp [signing, rules, sighashAllByte], fun _ _ => by simp [signing]⟩

def spend : Btc.BtcHtlcSpend := ⟨"07", 0, 1000, [0x51], 100⟩

def redeem : Script :=
  htlcScript (List.replicate 32 3) (List.replicate 33 2) (List.replicate 33 2) 500

theorem refund_builds :
    ∃ tx, Btc.buildRefundTx (signing Btc.TxOut) redeem spend 500 1 = .ok tx := by
  have hlength : redeem.length < 2 ^ 32 :=
    length_htlcScript ⟨length_replicate, length_replicate, length_replicate⟩
  have hscript : Btc.pushBytes redeem = .ok (pushSlice redeem) := if_pos hlength
  unfold Btc.buildRefundTx
  rw [hscript]
  exact ⟨_, rfl⟩

theorem htlc_unlocked_by_refund : ∃ script tx,
    buildHtlcRedeemScript (signing TxOut) (List.replicate 32 3) (List.replicate 33 2)
      (List.replicate 33 2) 500 = .ok script ∧
    Btc.buildRefundTx (signing Btc.TxOut) script spend 500 1 = .ok tx ∧
    spend.TakenBy (signing Btc.TxOut) (rules Btc.TxOut) script tx := by
  obtain ⟨script, hbuild, -, -, -, -, hrefund⟩ :=
    (htlc_unlocked_by_builders (accepted TxOut) (accepted Btc.TxOut)).1 (replicate 32 3)
      (replicate 33 2) (replicate 33 2) 500 length_replicate length_replicate
      length_replicate rfl rfl
  obtain ⟨tx, htx⟩ := refund_builds
  have hscript : redeem = script := (buildHtlcRedeemScript_ok_iff.1 hbuild).2.2.2
  rw [hscript] at htx
  exact ⟨script, tx, hbuild, htx, (hrefund spend 1 500 tx rfl htx).2 ⟨Iff.rfl, Nat.le_refl _⟩⟩

end SampleLock

end Swk
