import Swk.Consensus
import Swk.Contract
import Swk.Covenant

/-!
# Signing a CoinJoin

The coordinator of a round assembles the transaction. `sign_coinjoin_inputs` finds each of the
wallet's coins in it by its outpoint, checks that the key controls the coin, and puts a p2wpkh
witness on that input.

The transaction is mutated while it is signed, but a signature hash does not see witnesses. So after
some of the coins, the transaction is the one that was given with the witnesses of those coins
(`signedFor`), whatever was signed in which order: that is the invariant (`signInput_signedFor`).

A coin is looked up with `position`. When a transaction spends an outpoint twice, which no valid
transaction does, only its first input is signed; when a coin is listed twice, the last listing
counts (`signCoinjoinInputs_signs`).
-/

namespace Swk

open Consensus List

/-! ## Signing -/

structure CoinjoinInput where
  txid : Txid
  vout : UInt32
  value : UInt64
  spk : Bytes
  secretKey : SecretKey
deriving DecidableEq

/-- The hashes and the signatures that signing uses, and what decoding does. -/
structure CoinjoinSigning where
  /-- `elements::encode::deserialize`, with the text of its error. -/
  deserialize : Bytes → Except String Consensus.Transaction
  sha256 : Bytes → BitVec 256
  hash160 : Bytes → Bytes
  publicKey : SecretKey → Bytes
  signEcdsaLowR : BitVec 256 → SecretKey → Bytes

/-- The library reads a transaction from what it writes. -/
def CoinjoinSigning.RoundTrips (s : CoinjoinSigning) (tx : Consensus.Transaction) : Prop :=
  s.deserialize tx.consensusEncode = .ok tx

namespace Consensus

def TxIn.withScriptWitness (i : TxIn) (scriptWitness : List Bytes) : TxIn :=
  { i with witness := { i.witness with scriptWitness } }

end Consensus

namespace CoinjoinInput

def outPoint (ci : CoinjoinInput) : Consensus.OutPoint := ⟨ci.txid, ci.vout⟩

def name (ci : CoinjoinInput) : String := displayHash ci.txid ++ ":" ++ toString ci.vout.toNat

/-- The p2wpkh witness of the coin, as an input of a transaction. -/
def witness (s : CoinjoinSigning) (ci : CoinjoinInput) (tx : Consensus.Transaction)
    (idx : Fin tx.input.length) : List Bytes :=
  let compressed := s.publicKey ci.secretKey
  let pkh := s.hash160 compressed
  let sighash := segwitv0Sighash s.sha256 tx idx (p2wpkhScriptCode pkh) (.explicit ci.value)
  [s.signEcdsaLowR sighash ci.secretKey ++ [sighashAllByte], compressed]

end CoinjoinInput

/-- One round of the loop: find the coin, check the key and sign. -/
def signInput (s : CoinjoinSigning) (tx : Consensus.Transaction) (ci : CoinjoinInput) :
    Except Error Consensus.Transaction :=
  match tx.input.findFinIdx? fun i =>
      i.previousOutput.txid = ci.txid ∧ i.previousOutput.vout = ci.vout with
  | none => .error (.generic ("my input " ++ ci.name ++ " is not in the round transaction"))
  | some idx =>
    if p2wpkhSpk (s.hash160 (s.publicKey ci.secretKey)) ≠ ci.spk then
      .error (.generic ("coinjoin input " ++ ci.name ++
        " p2wpkh(key) != its scriptPubKey — wrong derivation"))
    else
      .ok { tx with
        input := tx.input.set idx ((tx.input.get idx).withScriptWitness (ci.witness s tx idx)) }

/-- The error of `Vec::<u8>::from_hex`, as text. -/
def hexError (s : String) : String :=
  let bytes := s.toList.flatMap String.utf8EncodeChar
  if bytes.length % 2 ≠ 0 then "odd hex string length " ++ toString bytes.length
  else
    match bytes.find? fun b => (hexDigit (Char.ofNat b.toNat)).isNone with
    | some b => "invalid hex character " ++ toString b.toNat
    | none => ""

/-- A transaction in hexadecimal, as `sign_coinjoin_inputs` reads it. -/
def decodeCoinjoin (s : CoinjoinSigning) (txHex : String) : Except Error Consensus.Transaction :=
  match fromHex txHex with
  | none => .error (.generic ("invalid coinjoin tx hex: " ++ hexError txHex))
  | some bytes =>
    (s.deserialize bytes).mapError fun e => .generic ("coinjoin tx decode: " ++ e)

def signCoinjoinInputs (s : CoinjoinSigning) (txHex : String) (inputs : List CoinjoinInput) :
    Except Error String := do
  let tx ← decodeCoinjoin s txHex
  if inputs.isEmpty then throw (.generic "no inputs to sign")
  else do
    let tx ← inputs.foldlM (signInput s) tx
    pure (toHex tx.consensusEncode)

/-! ## The transaction after some of the coins -/

/-- The input that is found for an outpoint: the first that spends it. -/
def Consensus.Transaction.position (tx : Consensus.Transaction) (o : Consensus.OutPoint) :
    Option Nat :=
  (tx.input.map (·.previousOutput)).findIdx? (· = o)

/-- The listing of an outpoint that counts: the last. -/
def lastListing (inputs : List CoinjoinInput) (o : Consensus.OutPoint) : Option CoinjoinInput :=
  inputs.reverse.find? (·.outPoint = o)

/-- An input, after signing for the listed coins. -/
def signedInput (s : CoinjoinSigning) (tx : Consensus.Transaction) (inputs : List CoinjoinInput)
    (k : Fin tx.input.length) : Consensus.TxIn :=
  let i := tx.input.get k
  if tx.position i.previousOutput = some k.val then
    match lastListing inputs i.previousOutput with
    | some ci => i.withScriptWitness (ci.witness s tx k)
    | none => i
  else i

/-- The transaction, after signing for the listed coins. -/
def signedFor (s : CoinjoinSigning) (tx : Consensus.Transaction) (inputs : List CoinjoinInput) :
    Consensus.Transaction :=
  { tx with input := List.ofFn (signedInput s tx inputs) }

/-- The coin is in the transaction, and its key controls it. -/
def Signable (s : CoinjoinSigning) (tx : Consensus.Transaction) (ci : CoinjoinInput) : Prop :=
  ci.outPoint ∈ tx.input.map (·.previousOutput) ∧
    p2wpkhSpk (s.hash160 (s.publicKey ci.secretKey)) = ci.spk

section SignedFor

variable {s : CoinjoinSigning} {tx : Consensus.Transaction} {inputs : List CoinjoinInput}

theorem signedInput_cases (k : Fin tx.input.length) : signedInput s tx inputs k = tx.input.get k ∨
      ∃ w, signedInput s tx inputs k = (tx.input.get k).withScriptWitness w := by
  unfold signedInput
  dsimp only
  split
  · split
    · exact .inr ⟨_, rfl⟩
    · exact .inl rfl
  · exact .inl rfl

theorem stripped_signedInput (k : Fin tx.input.length) :
    (signedInput s tx inputs k).stripped = (tx.input.get k).stripped := by
  rcases @signedInput_cases s tx inputs k with h | ⟨w, h⟩
  · rw [h]
  · rw [h]
    rfl

theorem map_signedFor {α : Type} {f : Consensus.TxIn → α} (hf : ∀ i, f i.stripped = f i) :
    (signedFor s tx inputs).input.map f = tx.input.map f := by
  have hpoint : f ∘ signedInput s tx inputs = f ∘ tx.input.get := by
    funext k
    show f (signedInput s tx inputs k) = f (tx.input.get k)
    rw [← hf, stripped_signedInput, hf]
  show (ofFn (signedInput s tx inputs)).map f = tx.input.map f
  rw [map_ofFn, hpoint, ← map_ofFn, ofFn_get]

theorem stripped_signedFor : (signedFor s tx inputs).stripped = tx.stripped := by
  have hinput := @map_signedFor s tx inputs _ TxIn.stripped fun _ => rfl
  unfold Consensus.Transaction.stripped
  rw [hinput]
  rfl

theorem position_signedFor (o : Consensus.OutPoint) :
    (signedFor s tx inputs).position o = tx.position o := by
  unfold Consensus.Transaction.position
  rw [map_signedFor fun _ => rfl]

theorem signedFor_nil : signedFor s tx [] = tx := by
  have hpoint : signedInput s tx [] = tx.input.get := by
    funext k
    unfold signedInput
    dsimp only [lastListing, reverse_nil, find?_nil]
    exact ite_self _
  rw [signedFor, hpoint, ofFn_get]

/-! ## The loop -/

theorem lastListing_append (inputs : List CoinjoinInput) (ci : CoinjoinInput)
    (o : Consensus.OutPoint) :
    lastListing (inputs ++ [ci]) o = if ci.outPoint = o then some ci else lastListing inputs o := by
  rw [lastListing, reverse_append, reverse_singleton, singleton_append, find?_cons]
  by_cases h : ci.outPoint = o
  · rw [if_pos h, decide_eq_true h]
  · rw [if_neg h, decide_eq_false h]
    rfl

variable {t : Consensus.Transaction} {ci : CoinjoinInput} {o : Consensus.OutPoint}
  {k : Fin tx.input.length} {inputs' : List CoinjoinInput}

theorem findFinIdx?_eq_some_iff {idx : Fin t.input.length} : (t.input.findFinIdx? fun i =>
        i.previousOutput.txid = ci.txid ∧ i.previousOutput.vout = ci.vout) = some idx ↔
      t.position ci.outPoint = some idx.val := by
  have hpred : (fun i : Consensus.TxIn =>
      decide (i.previousOutput.txid = ci.txid ∧ i.previousOutput.vout = ci.vout)) =
      (fun o => decide (o = ci.outPoint)) ∘ fun i : Consensus.TxIn => i.previousOutput := by
    funext i
    obtain ⟨⟨txid, vout⟩, pegin, script, sequence, issuance, witness⟩ := i
    simp [CoinjoinInput.outPoint]
  rw [Consensus.Transaction.position, findIdx?_map, ← hpred, findIdx?_eq_map_findFinIdx?_val]
  constructor
  · intro h
    rw [h]
    rfl
  · intro h
    obtain ⟨k, hk, hval⟩ := Option.map_eq_some_iff.1 h
    rw [hk, Fin.ext hval]

theorem position_eq_some {k : Nat} (h : tx.position o = some k) :
    ∃ hk : k < tx.input.length, (tx.input.get ⟨k, hk⟩).previousOutput = o := by
  obtain ⟨hk, heq, -⟩ := findIdx?_eq_some_iff_getElem.1 h
  rw [length_map] at hk
  refine ⟨hk, ?_⟩
  simpa using heq

theorem position_isSome_iff :
    (∃ k, tx.position o = some k) ↔ o ∈ tx.input.map (·.previousOutput) := by
  rw [← Option.isSome_iff_exists, Consensus.Transaction.position, findIdx?_isSome]
  simp

theorem witness_signedFor (ci : CoinjoinInput) {k : Nat} (hk : k < tx.input.length)
    (hk' : k < (signedFor s tx inputs).input.length) :
    ci.witness s (signedFor s tx inputs) ⟨k, hk'⟩ = ci.witness s tx ⟨k, hk⟩ := by
  have hhash (code : Script) (value : Value) :
      segwitv0Sighash s.sha256 (signedFor s tx inputs) ⟨k, hk'⟩ code value =
        segwitv0Sighash s.sha256 tx ⟨k, hk⟩ code value :=
    Consensus.Transaction.segwitv0Sighash_congr s.sha256 stripped_signedFor rfl code value
  unfold CoinjoinInput.witness
  dsimp only
  rw [hhash]

theorem signedInput_of_listed (hfirst : tx.position (tx.input.get k).previousOutput = some k.val)
    (hlast : lastListing inputs (tx.input.get k).previousOutput = some ci) :
    signedInput s tx inputs k = (tx.input.get k).withScriptWitness (ci.witness s tx k) := by
  unfold signedInput
  dsimp only
  rw [if_pos hfirst, hlast]

theorem signedInput_congr
    (h : tx.position (tx.input.get k).previousOutput = some k.val →
      lastListing inputs (tx.input.get k).previousOutput =
        lastListing inputs' (tx.input.get k).previousOutput) :
    signedInput s tx inputs k = signedInput s tx inputs' k := by
  unfold signedInput
  dsimp only
  by_cases hfirst : tx.position (tx.input.get k).previousOutput = some k.val
  · rw [if_pos hfirst, if_pos hfirst, h hfirst]
  · rw [if_neg hfirst, if_neg hfirst]

theorem set_signedFor {idx : Fin (signedFor s tx inputs).input.length}
    (h : tx.position ci.outPoint = some idx.val) :
    { signedFor s tx inputs with
      input := (signedFor s tx inputs).input.set idx
        (((signedFor s tx inputs).input.get idx).withScriptWitness
          (ci.witness s (signedFor s tx inputs) idx)) } = signedFor s tx (inputs ++ [ci]) := by
  obtain ⟨k, hk'⟩ := idx
  obtain ⟨hk, hpoint⟩ := position_eq_some h
  rw [witness_signedFor ci hk hk']
  have hlist : (ofFn (signedInput s tx inputs)).set k
      (((signedFor s tx inputs).input.get ⟨k, hk'⟩).withScriptWitness (ci.witness s tx ⟨k, hk⟩)) =
      ofFn (signedInput s tx (inputs ++ [ci])) := by
    apply ext_getElem
    · simp
    · intro j hj hj'
      rw [length_set, length_ofFn] at hj
      rw [List.getElem_set, List.getElem_ofFn]
      by_cases hjk : k = j
      · -- the input that is signed
        subst hjk
        have hlast :
            lastListing (inputs ++ [ci]) (tx.input.get ⟨k, hj⟩).previousOutput = some ci := by
          rw [lastListing_append, hpoint, if_pos rfl]
        have hget :
            (signedFor s tx inputs).input.get ⟨k, hk'⟩ = signedInput s tx inputs ⟨k, hk⟩ := by
          simp [signedFor]
        rw [if_pos rfl, hget, List.getElem_ofFn, signedInput_of_listed (hpoint.symm ▸ h) hlast]
        rcases @signedInput_cases s tx inputs ⟨k, hk⟩ with heq | ⟨w, heq⟩
        · rw [heq]
        · rw [heq]
          rfl
      · -- another: if it is the first of its outpoint, the coin has another outpoint
        rw [if_neg hjk, List.getElem_ofFn]
        apply signedInput_congr
        intro hfirst
        rw [lastListing_append, if_neg]
        intro hsame
        rw [← hsame, h] at hfirst
        exact hjk (Option.some.inj hfirst)
  unfold signedFor
  rw [← hlist]
  rfl

/-- **One coin.** Signing succeeds exactly for a coin that is in the transaction and whose key
controls it, whatever was signed before. -/
theorem signInput_signedFor :
    signInput s (signedFor s tx inputs) ci = .ok t ↔
      Signable s tx ci ∧ t = signedFor s tx (inputs ++ [ci]) := by
  unfold signInput
  split
  · rename_i hnone
    have hnot : ¬ Signable s tx ci := by
      intro hsign
      obtain ⟨k, hk⟩ := position_isSome_iff.2 hsign.1
      rw [← @position_signedFor s tx inputs] at hk
      obtain ⟨hlt, -⟩ := position_eq_some hk
      rw [findFinIdx?_eq_some_iff.2 (show _ = some (Fin.val ⟨k, hlt⟩) from hk)] at hnone
      cases hnone
    simp [hnot]
  · rename_i idx hsome
    have hpos : tx.position ci.outPoint = some idx.val :=
      position_signedFor ci.outPoint ▸ findFinIdx?_eq_some_iff.1 hsome
    have hmem := position_isSome_iff.1 ⟨_, hpos⟩
    by_cases hspk : p2wpkhSpk (s.hash160 (s.publicKey ci.secretKey)) = ci.spk
    · rw [if_neg (not_not.2 hspk), set_signedFor hpos]
      constructor
      · intro h
        exact ⟨⟨hmem, hspk⟩, (Except.ok.inj h).symm⟩
      · intro h
        rw [h.2]
    · rw [if_pos hspk]
      simp [Signable, hspk]

/-- **All coins.** -/
theorem foldlM_signInput (rest : List CoinjoinInput) :
    rest.foldlM (signInput s) (signedFor s tx inputs) = .ok t ↔
      (∀ ci ∈ rest, Signable s tx ci) ∧ t = signedFor s tx (inputs ++ rest) := by
  induction rest generalizing inputs with
  | nil =>
    rw [append_nil]
    constructor
    · intro h
      exact ⟨fun ci hci => absurd hci not_mem_nil, (Except.ok.inj h).symm⟩
    · intro h
      rw [h.2]
      rfl
  | cons ci rest ih =>
    rw [foldlM_cons, except_bind_ok_iff]
    constructor
    · intro h
      obtain ⟨t', hstep, hrest⟩ := h
      obtain ⟨hsign, rfl⟩ := signInput_signedFor.1 hstep
      obtain ⟨hall, rfl⟩ := ih.1 hrest
      refine ⟨?_, by rw [append_assoc]; rfl⟩
      intro c hc
      rcases mem_cons.1 hc with rfl | hc
      · exact hsign
      · exact hall c hc
    · intro h
      obtain ⟨hall, rfl⟩ := h
      refine ⟨_, signInput_signedFor.2 ⟨hall ci mem_cons_self, rfl⟩, ih.2 ⟨?_, ?_⟩⟩
      · intro c hc
        exact hall c (mem_cons_of_mem _ hc)
      · rw [append_assoc]
        rfl

theorem txid_signedFor (hash : Bytes → Txid) :
    (signedFor s tx inputs).txid hash = tx.txid hash := by
  rw [Consensus.Transaction.txid, Consensus.Transaction.txid,
    ← Consensus.Transaction.consensusEncode_stripped, stripped_signedFor,
    Consensus.Transaction.consensusEncode_stripped]

theorem lastListing_eq_some (hnodup : (inputs.map CoinjoinInput.outPoint).Nodup) :
    lastListing inputs o = some ci ↔ ci ∈ inputs ∧ ci.outPoint = o := by
  constructor
  · intro h
    exact ⟨mem_reverse.1 (mem_of_find?_eq_some h), by simpa using find?_some h⟩
  · intro h
    cases hfind : lastListing inputs o with
    | none =>
      have hall := find?_eq_none.1 hfind ci (mem_reverse.2 h.1)
      simp [h.2] at hall
    | some ci' =>
      have hmem : ci' ∈ inputs := mem_reverse.1 (mem_of_find?_eq_some hfind)
      have hpoint : ci'.outPoint = o := by simpa using find?_some hfind
      rw [inj_on_of_nodup_map hnodup hmem h.1 (hpoint.trans h.2.symm)]

theorem signedFor_perm (hnodup : (inputs.map CoinjoinInput.outPoint).Nodup)
    (hperm : inputs'.Perm inputs) :
    signedFor s tx inputs' = signedFor s tx inputs := by
  have hnodup' : (inputs'.map CoinjoinInput.outPoint).Nodup := ((hperm.map _).nodup_iff).2 hnodup
  have hlast (o : Consensus.OutPoint) : lastListing inputs' o = lastListing inputs o := by
    apply Option.ext
    intro ci
    rw [lastListing_eq_some hnodup', lastListing_eq_some hnodup, hperm.mem_iff]
  have hpoint : signedInput s tx inputs' = signedInput s tx inputs := by
    funext k
    exact signedInput_congr fun _ => hlast _
  rw [signedFor, hpoint]
  rfl

end SignedFor

/-! ## Signing the round -/

variable {s : CoinjoinSigning} {inputs : List CoinjoinInput}

/-- `sign_coinjoin_inputs` succeeds for coins that can be signed, with the transaction signed for
them. -/
theorem signCoinjoinInputs_ok_iff {txHex hex : String} :
    signCoinjoinInputs s txHex inputs = .ok hex ↔
      ∃ tx, decodeCoinjoin s txHex = .ok tx ∧ inputs ≠ [] ∧ (∀ ci ∈ inputs, Signable s tx ci) ∧
        hex = toHex (signedFor s tx inputs).consensusEncode := by
  unfold signCoinjoinInputs
  rw [except_bind_ok_iff]
  apply exists_congr
  intro tx
  apply and_congr_right
  intro _
  cases inputs with
  | nil =>
    constructor
    · intro h
      cases h
    · intro h
      exact absurd rfl h.1
  | cons ci rest =>
    rw [if_neg (by simp), except_bind_ok_iff]
    have hfold (t : Consensus.Transaction) := @foldlM_signInput s tx [] t (ci :: rest)
    rw [signedFor_nil, nil_append] at hfold
    constructor
    · intro h
      obtain ⟨t, ht, hhex⟩ := h
      obtain ⟨hall, rfl⟩ := (hfold t).1 ht
      exact ⟨cons_ne_nil _ _, hall, (Except.ok.inj hhex).symm⟩
    · intro h
      exact ⟨_, (hfold _).2 ⟨h.2.1, rfl⟩, by rw [h.2.2]; rfl⟩

/-- A transaction after signing for the listed coins. -/
structure SignedOnly (s : CoinjoinSigning) (tx : Consensus.Transaction)
    (inputs : List CoinjoinInput) (tx' : Consensus.Transaction) : Prop where
  version : tx'.version = tx.version
  lockTime : tx'.lockTime = tx.lockTime
  output : tx'.output = tx.output
  length : tx'.input.length = tx.input.length
  /-- Each listed coin is spent, by a first input. -/
  found : ∀ ci ∈ inputs, ∃ k, tx.position ci.outPoint = some k
  /-- That input has the p2wpkh witness of the last listing, for the signature hash of the result,
  and nothing else of it is changed. -/
  signed : ∀ (k : Fin tx'.input.length) (i : Consensus.TxIn) (ci : CoinjoinInput),
    tx.input[k.val]? = some i → tx.position i.previousOutput = some k.val →
    lastListing inputs i.previousOutput = some ci →
    p2wpkhSpk (s.hash160 (s.publicKey ci.secretKey)) = ci.spk ∧
      tx'.input.get k = i.withScriptWitness (ci.witness s tx' k)
  /-- Other inputs are not changed. -/
  others : ∀ (k : Nat) (i : Consensus.TxIn), tx.input[k]? = some i →
    tx.position i.previousOutput ≠ some k ∨ lastListing inputs i.previousOutput = none →
    tx'.input[k]? = some i

theorem signedOnly_signedFor {tx : Consensus.Transaction} (h : ∀ ci ∈ inputs, Signable s tx ci) :
    SignedOnly s tx inputs (signedFor s tx inputs) where
  version := rfl
  lockTime := rfl
  output := rfl
  length := by simp only [signedFor, List.length_ofFn]
  found ci hci := position_isSome_iff.2 (h ci hci).1
  signed := by
    intro k i ci hi hfirst hlast
    obtain ⟨k, hk'⟩ := k
    obtain ⟨hk, rfl⟩ := List.getElem?_eq_some_iff.1 hi
    have hlisted : ci ∈ inputs := List.mem_reverse.1 (List.mem_of_find?_eq_some hlast)
    have hget : (signedFor s tx inputs).input.get ⟨k, hk'⟩ = signedInput s tx inputs ⟨k, hk⟩ := by
      simp [signedFor]
    refine ⟨(h ci hlisted).2, ?_⟩
    rw [hget, witness_signedFor ci hk hk']
    exact signedInput_of_listed hfirst hlast
  others := by
    intro k i hi hother
    obtain ⟨hk, rfl⟩ := List.getElem?_eq_some_iff.1 hi
    have hsame : signedInput s tx inputs ⟨k, hk⟩ = tx.input.get ⟨k, hk⟩ := by
      have hnil : signedInput s tx [] ⟨k, hk⟩ = tx.input.get ⟨k, hk⟩ := by
        unfold signedInput
        exact ite_self _
      rw [← hnil]
      apply signedInput_congr
      intro hfirst
      rcases hother with hnot | hnone
      · exact absurd hfirst hnot
      · exact hnone
    simp only [signedFor, List.getElem?_ofFn, hk, dif_pos, hsame]
    rfl

theorem decodeCoinjoin_toHex {tx : Consensus.Transaction} (h : s.RoundTrips tx) :
    decodeCoinjoin s (toHex tx.consensusEncode) = .ok tx := by
  unfold decodeCoinjoin
  rw [fromHex_toHex]
  exact mapError_ok_iff.2 h

/-- **CoinJoin signing.** What is returned is the transaction that was given, with the witnesses of
the listed coins. Its txid is the same. If the coins are distinct, their order does not matter. -/
theorem signCoinjoinInputs_signs {s : CoinjoinSigning} {txHex hex : String}
    {inputs : List CoinjoinInput} (h : signCoinjoinInputs s txHex inputs = .ok hex) :
    ∃ tx tx', decodeCoinjoin s txHex = .ok tx ∧ hex = toHex tx'.consensusEncode ∧
      (s.RoundTrips tx' → decodeCoinjoin s hex = .ok tx') ∧
      SignedOnly s tx inputs tx' ∧ (∀ hash, tx'.txid hash = tx.txid hash) ∧
      ((inputs.map CoinjoinInput.outPoint).Nodup → ∀ inputs', inputs'.Perm inputs →
        signCoinjoinInputs s txHex inputs' = .ok hex) := by
  obtain ⟨tx, hdecode, hne, hall, rfl⟩ := signCoinjoinInputs_ok_iff.1 h
  refine ⟨tx, signedFor s tx inputs, hdecode, rfl, decodeCoinjoin_toHex,
    signedOnly_signedFor hall, txid_signedFor, ?_⟩
  intro hnodup inputs' hperm
  refine signCoinjoinInputs_ok_iff.2 ⟨tx, hdecode, ?_, ?_, ?_⟩
  · intro hnil
    rw [hnil] at hperm
    exact hne (nil_perm.1 hperm)
  · intro ci hci
    exact hall ci (hperm.mem_iff.1 hci)
  · rw [signedFor_perm hnodup hperm]

/-! ## A transaction that spends a coin twice -/

namespace SpentTwice

def coin : CoinjoinInput where
  txid := 1
  vout := 0
  value := 1000
  spk := p2wpkhSpk (List.replicate 20 7)
  secretKey := 1

def txin : Consensus.TxIn where
  previousOutput := coin.outPoint
  isPegin := false
  scriptSig := []
  sequence := 0xffffffff
  assetIssuance := .null
  witness := .empty

def tx : Consensus.Transaction where
  version := 2
  lockTime := 0
  input := [txin, txin]
  output := []

def constants : CoinjoinSigning where
  deserialize := fun _ => .error ""
  sha256 := fun _ => 0
  hash160 := fun _ => List.replicate 20 7
  publicKey := fun _ => List.replicate 33 2
  signEcdsaLowR := fun _ _ => [0x30]

def tx' : Consensus.Transaction := signedFor constants tx [coin]

def read (bytes : Bytes) : Except String Consensus.Transaction :=
  if bytes = tx.consensusEncode then .ok tx
  else if bytes = tx'.consensusEncode then .ok tx'
  else .error ""

def signing : CoinjoinSigning := { constants with deserialize := read }

theorem roundTrips_tx : signing.RoundTrips tx := by
  show read tx.consensusEncode = .ok tx
  rw [read, if_pos rfl]

theorem roundTrips_tx' : signing.RoundTrips tx' := by
  show read tx'.consensusEncode = .ok tx'
  rw [read, if_neg (by decide), if_pos rfl]

theorem signs : signCoinjoinInputs signing (toHex tx.consensusEncode) [coin] =
    .ok (toHex tx'.consensusEncode) := by
  refine signCoinjoinInputs_ok_iff.2
    ⟨tx, decodeCoinjoin_toHex roundTrips_tx, cons_ne_nil _ _, ?_, rfl⟩
  intro ci hci
  obtain rfl := mem_singleton.1 hci
  exact ⟨mem_cons_self, rfl⟩

/-- Both inputs spend the coin that is listed, and one of them is signed. -/
theorem second_input_not_signed : signCoinjoinInputs signing (toHex tx.consensusEncode) [coin] =
        .ok (toHex tx'.consensusEncode) ∧
      decodeCoinjoin signing (toHex tx'.consensusEncode) = .ok tx' ∧
      tx.input.map (·.previousOutput) = [coin.outPoint, coin.outPoint] ∧
      tx'.input.map (·.witness.scriptWitness) =
        [[[0x30, sighashAllByte], List.replicate 33 2], []] :=
  ⟨signs, decodeCoinjoin_toHex roundTrips_tx', rfl, rfl⟩

theorem signCoinjoinInputs_signs_spentTwice :
    ∃ t t', decodeCoinjoin signing (toHex tx.consensusEncode) = .ok t ∧
      toHex tx'.consensusEncode = toHex t'.consensusEncode ∧ SignedOnly signing t [coin] t' := by
  obtain ⟨t, t', hdecode, hhex, -, hsigned, -⟩ := signCoinjoinInputs_signs signs
  exact ⟨t, t', hdecode, hhex, hsigned⟩

end SpentTwice

end Swk
