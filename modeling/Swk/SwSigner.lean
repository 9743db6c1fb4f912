import Mathlib.Algebra.GroupWithZero.Nat
import Mathlib.Data.Finmap
import Swk.Codec
import Swk.PsetDetails

/-!
# Signing with a software signer

`SwSigner::sign` goes over the inputs of a PSET twice. First it computes the messages of the inputs
that name its fingerprint, while the PSET is borrowed. Then it signs: a partial signature for every
key it derives of an input that is not taproot, and a key-path signature for an unsigned taproot
input whose internal key it derives.

An input is split into what signing reads (`InputData`), with all the other fields, and the two
fields it writes. Messages are computed from the former, so they do not depend on signatures. What
a signer does to one input is then a function of that input (`signedInput`), and the loops are shown
to compute it. Everything else follows pointwise: that nothing else changes, that signing again adds
nothing, and that two signers with distinct keys commute (`sign_framed`).

A Schnorr signature stands for its key and message.
-/

namespace Swk

open List

namespace Signer

/-! ## PSETs as signing sees them -/

/-- `bitcoin::PublicKey`. -/
structure BtcPublicKey where
  compressed : Bool
  inner : PublicKey
deriving DecidableEq

inductive EcdsaSighashType
  | all
  | none
  | single
  | allPlusAnyoneCanPay
  | nonePlusAnyoneCanPay
  | singlePlusAnyoneCanPay
deriving DecidableEq

namespace EcdsaSighashType

def toByte : EcdsaSighashType → UInt8
  | all => 0x01
  | none => 0x02
  | single => 0x03
  | allPlusAnyoneCanPay => 0x81
  | nonePlusAnyoneCanPay => 0x82
  | singlePlusAnyoneCanPay => 0x83

def fromStandard (n : UInt32) : Option EcdsaSighashType :=
  [all, none, single, allPlusAnyoneCanPay, nonePlusAnyoneCanPay, singlePlusAnyoneCanPay].find?
    fun t => t.toByte.toNat = n.toNat

end EcdsaSighashType

inductive SchnorrSighashType
  | default
  | ecdsa (t : EcdsaSighashType)
deriving DecidableEq

/-- `SchnorrSighashType::from_u8`, of a type that fits a byte: `schnorr_hash_ty`. -/
def SchnorrSighashType.fromU32 (n : UInt32) : Option SchnorrSighashType :=
  if n = 0 then some default else (EcdsaSighashType.fromStandard n).map ecdsa

/-- `SchnorrSig`, by the key and the message. -/
structure SchnorrSig where
  key : BitVec 256
  msg : BitVec 256
  hashTy : SchnorrSighashType
deriving DecidableEq

/-- What signing reads of an input, and the fields it does not look at. -/
structure InputData (R : Type) where
  witnessUtxo : Option Script
  sighashType : Option UInt32
  bip32Derivation : List (BtcPublicKey × KeySource)
  nodup : (bip32Derivation.map (·.1)).Nodup
  /-- A map by x-only key, in its order. The leaf hashes are not looked at. -/
  tapKeyOrigins : List (BitVec 256 × KeySource)
  tapInternalKey : Option (BitVec 256)
  tapMerkleRoot : Option (BitVec 256)
  other : R

/-- Whether the spent output is known to be taproot. -/
def InputData.isTaproot {R : Type} (d : InputData R) : Bool := d.witnessUtxo.any Script.isV1P2tr

abbrev PartialSigs := Finmap fun _ : BtcPublicKey => Bytes

structure Input (R : Type) where
  data : InputData R
  partialSigs : PartialSigs
  tapKeySig : Option SchnorrSig

structure SigningPset (R G : Type) where
  inputs : List (Input R)
  other : G

def SigningPset.data {R G : Type} (p : SigningPset R G) : List (InputData R) :=
  p.inputs.map (·.data)

/-! ## Signing -/

/-- `SignError`, as far as `sign` raises it; each is the error of a library. -/
inductive SignError
  | pset (text : String)
  | sighash (text : String)
  | bip32 (text : String)
deriving DecidableEq

/-- `PsbtSighashMsg`. -/
inductive SighashMsg
  | tapSighash (hash : BitVec 256)
  | ecdsaSighash (hash : BitVec 256)
deriving DecidableEq

/-- The digest that is signed: `to_secp_msg`. -/
def SighashMsg.digest : SighashMsg → BitVec 256
  | tapSighash hash => hash
  | ecdsaSighash hash => hash

/-- The libraries that `sign` calls. The message of a taproot input is a taproot message. -/
structure Crypto (R G : Type) where
  publicKey : SecretKey → PublicKey
  /-- `tap_tweak` of an x-only key with a merkle root. -/
  tapTweak : BitVec 256 → Option (BitVec 256) → BitVec 256
  /-- `sign_ecdsa_low_r` and `sign_ecdsa`, in DER. -/
  signEcdsaLowR : BitVec 256 → SecretKey → Bytes
  signEcdsa : BitVec 256 → SecretKey → Bytes
  extractTx : G → List (InputData R) → Except SignError Unit
  sighashMsg : G → List (InputData R) → Nat → Except SignError SighashMsg
  sighashMsg_tap : ∀ g l i d msg, l[i]? = some d → d.isTaproot = true →
    sighashMsg g l i = .ok msg → ∃ hash, msg = .tapSighash hash

inductive EcdsaSignOpt
  | lowR
  | noGrind
deriving DecidableEq

end Signer

/-- `SwSigner`, by what its key derives. -/
structure SwSigner where
  fingerprint : BitVec 32
  derivePriv : DerivationPath → Except Signer.SignError SecretKey
  ecdsaSignOpt : Signer.EcdsaSignOpt

namespace SwSigner

open Signer

variable {R G : Type}

def mine (a : SwSigner) (d : InputData R) : Bool :=
  if d.isTaproot then d.tapKeyOrigins.any fun e => e.2.1 = a.fingerprint
  else d.bip32Derivation.any fun e => e.2.1 = a.fingerprint

variable (c : Crypto R G)

/-- The message of an input, if it names the signer. -/
def message (a : SwSigner) (g : G) (data : List (InputData R)) (i : Nat)
    (d : InputData R) : Except SignError (Option SighashMsg) :=
  if a.mine d then (c.sighashMsg g data i).map some else .ok none

def schnorrHashTy (d : InputData R) : SchnorrSighashType :=
  (d.sighashType.bind SchnorrSighashType.fromU32).getD .default

def ecdsaHashTy (d : InputData R) : EcdsaSighashType :=
  (d.sighashType.bind EcdsaSighashType.fromStandard).getD .all

/-- An entry of `tap_key_origins`. -/
def signTap (a : SwSigner) (msg : SighashMsg) (st : Input R × Nat)
    (e : BitVec 256 × KeySource) : Except SignError (Input R × Nat) :=
  if e.2.1 = a.fingerprint then do
    let derived ← a.derivePriv e.2.2
    let x := (c.publicKey derived).x
    if st.1.data.tapInternalKey ≠ some x ∨ st.1.tapKeySig.isSome ∨ x ≠ e.1 then pure st
    else
      match msg with
      | .tapSighash hash =>
        pure
          ({ st.1 with
              tapKeySig := some
                ⟨c.tapTweak x st.1.data.tapMerkleRoot, hash, schnorrHashTy st.1.data⟩ },
            st.2 + 1)
      | .ecdsaSighash _ => pure st
  else pure st

/-- A partial signature: DER and the hash type. -/
def rawSig (a : SwSigner) (msg : SighashMsg) (d : InputData R) (key : SecretKey) : Bytes :=
  (match a.ecdsaSignOpt with
    | .lowR => c.signEcdsaLowR msg.digest key
    | .noGrind => c.signEcdsa msg.digest key) ++ [(ecdsaHashTy d).toByte]

/-- An entry of `bip32_derivation`. -/
def signKey (a : SwSigner) (msg : SighashMsg) (st : Input R × Nat)
    (e : BtcPublicKey × KeySource) : Except SignError (Input R × Nat) :=
  if a.fingerprint = e.2.1 then do
    let derived ← a.derivePriv e.2.2
    let publicKey : BtcPublicKey := ⟨true, c.publicKey derived⟩
    if e.1 = publicKey then
      pure
        ({ st.1 with
            partialSigs := st.1.partialSigs.insert publicKey (rawSig c a msg st.1.data derived) },
          if (st.1.partialSigs.lookup publicKey).isNone then st.2 + 1 else st.2)
    else pure st
  else pure st

def signInput (a : SwSigner) (msg : Option SighashMsg) (i : Input R) (n : Nat) :
    Except SignError (Input R × Nat) :=
  match msg with
  | none => .ok (i, n)
  | some msg =>
    if i.data.isTaproot then i.data.tapKeyOrigins.foldlM (signTap c a msg) (i, n)
    else i.data.bip32Derivation.foldlM (signKey c a msg) (i, n)

def signInputs (c : Crypto R G) (a : SwSigner) :
    List (Input R × Option SighashMsg) → Nat → Except SignError (List (Input R) × Nat)
  | [], n => .ok ([], n)
  | e :: l, n => do
      let r ← signInput c a e.2 e.1 n
      let rest ← signInputs c a l r.2
      pure (r.1 :: rest.1, rest.2)

def messages (a : SwSigner) (g : G) (data : List (InputData R)) :
    Except SignError (List (Option SighashMsg)) :=
  data.zipIdx.mapM fun e => message c a g data e.2 e.1

/-- `SwSigner::sign`: the PSET and the number of signatures that were added. -/
def sign (a : SwSigner) (p : SigningPset R G) : Except SignError (SigningPset R G × Nat) := do
  c.extractTx p.other p.data
  let messages ← messages c a p.other p.data
  let r ← signInputs c a (p.inputs.zip messages) 0
  pure ({ p with inputs := r.1 }, r.2)

/-! ## What signing does to an input -/

/-- The partial signature for an entry of `bip32_derivation`, with its key. -/
def keySig (a : SwSigner) (msg : SighashMsg) (d : InputData R)
    (e : BtcPublicKey × KeySource) : Option (BtcPublicKey × Bytes) :=
  if a.fingerprint = e.2.1 then
    match a.derivePriv e.2.2 with
    | .ok derived =>
      if e.1 = ⟨true, c.publicKey derived⟩ then some (e.1, rawSig c a msg d derived) else none
    | .error _ => none
  else none

/-- The key-path signature for an entry of `tap_key_origins`. -/
def tapSig (a : SwSigner) (msg : SighashMsg) (d : InputData R)
    (e : BitVec 256 × KeySource) : Option SchnorrSig :=
  if e.2.1 = a.fingerprint then
    match a.derivePriv e.2.2 with
    | .ok derived =>
      let x := (c.publicKey derived).x
      if d.tapInternalKey ≠ some x ∨ x ≠ e.1 then none
      else
        match msg with
        | .tapSighash hash => some ⟨c.tapTweak x d.tapMerkleRoot, hash, schnorrHashTy d⟩
        | .ecdsaSighash _ => none
    | .error _ => none
  else none

def insertAll (m : PartialSigs) (l : List (BtcPublicKey × Bytes)) : PartialSigs :=
  l.foldl (fun m e => m.insert e.1 e.2) m

def signedInput (a : SwSigner) (msg : Option SighashMsg) (i : Input R) : Input R :=
  match msg with
  | none => i
  | some msg =>
    if i.data.isTaproot then
      { i with
        tapKeySig := i.tapKeySig <|> i.data.tapKeyOrigins.findSome? (tapSig c a msg i.data) }
    else
      { i with
        partialSigs :=
          insertAll i.partialSigs (i.data.bip32Derivation.filterMap (keySig c a msg i.data)) }

/-- The signatures that an input has and did not have before. -/
def newSignatures (i i' : Input R) : Nat :=
  (i'.partialSigs.keys \ i.partialSigs.keys).card +
    if i.tapKeySig = none ∧ i'.tapKeySig ≠ none then 1 else 0

/-- Add a partial signature, if there is one, and count it if its key had none. -/
def addKeySig (st : Input R × Nat) : Option (BtcPublicKey × Bytes) → Input R × Nat
  | some s =>
    ({ st.1 with partialSigs := st.1.partialSigs.insert s.1 s.2 },
      if (st.1.partialSigs.lookup s.1).isNone then st.2 + 1 else st.2)
  | none => st

/-- Add a key-path signature, if there is one and the input has none. -/
def addTapSig (st : Input R × Nat) (sig : Option SchnorrSig) : Input R × Nat :=
  match st.1.tapKeySig, sig with
  | none, some sig => ({ st.1 with tapKeySig := some sig }, st.2 + 1)
  | _, _ => st

/-- The key of an entry that names the signer is derived. -/
def derives {K : Type} (a : SwSigner) (e : K × KeySource) : Except SignError Unit :=
  if e.2.1 = a.fingerprint then (a.derivePriv e.2.2).map fun _ => () else .ok ()

/-- The keys of all entries that name the signer are derived, if there is a message. -/
def canSign (a : SwSigner) (msg : Option SighashMsg) (d : InputData R) : Except SignError Unit :=
  match msg with
  | none => .ok ()
  | some _ =>
    if d.isTaproot then (d.tapKeyOrigins.mapM (derives a)).map fun _ => ()
    else (d.bip32Derivation.mapM (derives a)).map fun _ => ()

section Loops

variable {c : Crypto R G} {a : SwSigner} {msg : SighashMsg}

theorem signKey_eq (st : Input R × Nat) (e : BtcPublicKey × KeySource) : signKey c a msg st e =
      (derives a e).map fun _ => addKeySig st (keySig c a msg st.1.data e) := by
  unfold signKey keySig derives
  by_cases hfp : a.fingerprint = e.2.1
  · rw [if_pos hfp, if_pos hfp, if_pos hfp.symm]
    cases a.derivePriv e.2.2 with
    | error err => rfl
    | ok derived =>
      rw [except_ok_bind]
      dsimp only
      by_cases hkey : e.1 = ⟨true, c.publicKey derived⟩
      · rw [if_pos hkey, if_pos hkey, ← hkey]
        rfl
      · rw [if_neg hkey, if_neg hkey]
        rfl
  · rw [if_neg hfp, if_neg hfp, if_neg (Ne.symm hfp)]
    rfl

theorem signTap_eq (st : Input R × Nat) (e : BitVec 256 × KeySource) : signTap c a msg st e =
      (derives a e).map fun _ => addTapSig st (tapSig c a msg st.1.data e) := by
  unfold signTap tapSig derives addTapSig
  by_cases hfp : e.2.1 = a.fingerprint
  · rw [if_pos hfp, if_pos hfp, if_pos hfp]
    cases a.derivePriv e.2.2 with
    | error err => rfl
    | ok derived =>
      rw [except_ok_bind]
      dsimp only
      cases st.1.tapKeySig with
      | some sig =>
        rw [if_pos (.inr (.inl rfl))]
        rfl
      | none =>
        by_cases hkey : st.1.data.tapInternalKey ≠ some (c.publicKey derived).x ∨
            (c.publicKey derived).x ≠ e.1
        · rw [if_pos (hkey.imp_right .inr), if_pos hkey]
          rfl
        · rw [if_neg (by simpa using hkey), if_neg hkey]
          cases msg <;> rfl
  · rw [if_neg hfp, if_neg hfp, if_neg hfp]
    cases st.1.tapKeySig <;> rfl

variable (m : PartialSigs)

theorem insertAll_cons (e : BtcPublicKey × Bytes)
    (l : List (BtcPublicKey × Bytes)) : insertAll m (e :: l) = insertAll (m.insert e.1 e.2) l := rfl

theorem keys_insert (k : BtcPublicKey) (v : Bytes) : (m.insert k v).keys = insert k m.keys := by
  ext x
  rw [Finmap.mem_keys, Finmap.mem_insert, Finset.mem_insert, Finmap.mem_keys]

theorem keys_subset_insertAll
    (l : List (BtcPublicKey × Bytes)) : m.keys ⊆ (insertAll m l).keys := by
  induction l generalizing m with
  | nil => exact Finset.Subset.refl _
  | cons e l ih =>
    rw [insertAll_cons]
    refine Finset.Subset.trans ?_ (ih _)
    rw [keys_insert]
    exact Finset.subset_insert _ _

theorem card_insertAll_insert (k : BtcPublicKey) (v : Bytes) (l : List (BtcPublicKey × Bytes)) :
    ((insertAll (m.insert k v) l).keys \ m.keys).card = (if (m.lookup k).isNone then 1 else 0) +
        ((insertAll (m.insert k v) l).keys \ (m.insert k v).keys).card := by
  have hk : k ∈ (insertAll (m.insert k v) l).keys := by
    apply keys_subset_insertAll
    rw [keys_insert]
    exact Finset.mem_insert_self _ _
  rw [keys_insert]
  by_cases hmem : k ∈ m.keys
  · have hsome := Finmap.lookup_isSome.2 (Finmap.mem_keys.1 hmem)
    rw [Finset.insert_eq_of_mem hmem, if_neg (by simp [Option.isNone_eq_false_iff.2 hsome]),
      Nat.zero_add]
  · have hnone := Finmap.lookup_eq_none.2 fun h => hmem (Finmap.mem_keys.2 h)
    have hnew := Finset.mem_sdiff.2 ⟨hk, hmem⟩
    have hpos := Finset.card_pos.2 ⟨k, hnew⟩
    rw [hnone, Finset.sdiff_insert, Finset.card_erase_of_mem hnew]
    simp only [Option.isNone_none, if_true]
    omega

/-- The loop over `bip32_derivation`. -/
theorem foldl_addKeySig (l : List (BtcPublicKey × KeySource)) (i : Input R) (n : Nat) :
    l.foldl (fun st e => addKeySig st (keySig c a msg st.1.data e)) (i, n) =
      let sigs := insertAll i.partialSigs (l.filterMap (keySig c a msg i.data))
      ({ i with partialSigs := sigs }, n + (sigs.keys \ i.partialSigs.keys).card) := by
  induction l generalizing i n with
  | nil => simp [insertAll]
  | cons e l ih =>
    rw [foldl_cons]
    cases hsig : keySig c a msg i.data e with
    | none =>
      rw [filterMap_cons_none hsig]
      exact ih i n
    | some s =>
      rw [filterMap_cons_some hsig, insertAll_cons]
      dsimp only
      rw [card_insertAll_insert, ← Nat.add_assoc]
      refine (ih _ _).trans ?_
      split <;> rfl

/-- The loop over `tap_key_origins`. -/
theorem foldl_addTapSig (l : List (BitVec 256 × KeySource)) (i : Input R) (n : Nat) :
    l.foldl (fun st e => addTapSig st (tapSig c a msg st.1.data e)) (i, n) =
      let sig := i.tapKeySig <|> l.findSome? (tapSig c a msg i.data)
      ({ i with tapKeySig := sig }, n + if i.tapKeySig = none ∧ sig ≠ none then 1 else 0) := by
  induction l generalizing i n with
  | nil => cases hold : i.tapKeySig <;> simp [← hold]
  | cons e l ih =>
    rw [foldl_cons]
    cases hold : i.tapKeySig with
    | some sig =>
      have hadd : addTapSig (i, n) (tapSig c a msg i.data e) = (i, n) := by
        unfold addTapSig
        rw [hold]
      rw [hadd, ih, hold]
      rfl
    | none =>
      cases hsig : tapSig c a msg i.data e with
      | none =>
        have hadd : addTapSig (i, n) none = (i, n) := by
          unfold addTapSig
          rw [hold]
        rw [hadd, ih, hold, findSome?_cons, hsig]
      | some sig =>
        have hadd : addTapSig (i, n) (some sig) = ({ i with tapKeySig := some sig }, n + 1) := by
          unfold addTapSig
          rw [hold]
        rw [hadd, ih, findSome?_cons, hsig]
        simp

theorem signedInput_of_tap {i : Input R} (h : i.data.isTaproot = true) :
    signedInput c a (some msg) i =
      { i with
        tapKeySig := i.tapKeySig <|> i.data.tapKeyOrigins.findSome? (tapSig c a msg i.data) } :=
  if_pos h

theorem signedInput_of_not_tap {i : Input R} (h : ¬i.data.isTaproot = true) :
    signedInput c a (some msg) i =
      { i with
        partialSigs :=
          insertAll i.partialSigs (i.data.bip32Derivation.filterMap (keySig c a msg i.data)) } :=
  if_neg h

theorem newSignatures_self (i : Input R) : newSignatures i i = 0 := by
  unfold newSignatures
  rw [if_neg fun h => h.2 h.1, Finset.sdiff_self]
  rfl

theorem signInput_eq (m : Option SighashMsg) (i : Input R) (n : Nat) :
    signInput c a m i n = (canSign a m i.data).map fun _ =>
      (signedInput c a m i, n + newSignatures i (signedInput c a m i)) := by
  unfold signInput canSign
  cases m with
  | none => simp [Except.map, signedInput, newSignatures_self]
  | some m =>
    dsimp only
    by_cases htap : i.data.isTaproot = true
    · rw [if_pos htap, if_pos htap, signedInput_of_tap htap, foldlM_eq_map signTap_eq,
        foldl_addTapSig]
      cases i.data.tapKeyOrigins.mapM (derives a) <;> simp [Except.map, newSignatures]
    · rw [if_neg htap, if_neg htap, signedInput_of_not_tap htap, foldlM_eq_map signKey_eq,
        foldl_addKeySig]
      cases i.data.bip32Derivation.mapM (derives a) <;> simp [Except.map, newSignatures]

theorem signInputs_eq (l : List (Input R × Option SighashMsg)) (n : Nat) :
    signInputs c a l n = (l.mapM fun e => canSign a e.2 e.1.data).map fun _ =>
      (l.map fun e => signedInput c a e.2 e.1,
        n + (l.map fun e => newSignatures e.1 (signedInput c a e.2 e.1)).sum) := by
  induction l generalizing n with
  | nil => rfl
  | cons e l ih =>
    rw [signInputs, signInput_eq, mapM_cons, map_cons, map_cons, sum_cons, ← Nat.add_assoc]
    cases canSign a e.2 e.1.data with
    | error err => rfl
    | ok u =>
      simp only [Except.map, except_ok_bind, ih]
      cases l.mapM fun e => canSign a e.2 e.1.data <;> rfl

end Loops

/-! ## What signing does to a PSET -/

/-- The messages, if signing does not fail. Signatures do not enter. -/
def ready (c : Crypto R G) (a : SwSigner) (g : G) (data : List (InputData R)) :
    Except SignError (List (Option SighashMsg)) := do
  c.extractTx g data
  let ms ← messages c a g data
  let _ ← (data.zip ms).mapM fun e => canSign a e.2 e.1
  pure ms

def signedInputs (c : Crypto R G) (a : SwSigner) (ms : List (Option SighashMsg))
    (inputs : List (Input R)) : List (Input R) :=
  (inputs.zip ms).map fun e => signedInput c a e.2 e.1

section Psets

variable {c : Crypto R G} {a : SwSigner} {g : G} {data : List (InputData R)}
  {ms : List (Option SighashMsg)}

theorem signedInput_data (m : Option SighashMsg) (i : Input R) :
    (signedInput c a m i).data = i.data := by
  unfold signedInput
  cases m with
  | none => rfl
  | some m =>
    dsimp only
    split <;> rfl

variable {k : Nat} {d : InputData R} {inputs : List (Input R)}

theorem message_some {m : SighashMsg} (h : message c a g data k d = .ok (some m)) :
    c.sighashMsg g data k = .ok m := by
  unfold message at h
  split at h
  · obtain ⟨m', hm', heq⟩ := map_ok_iff.1 h
    cases heq
    exact hm'
  · cases h

theorem message_none (h : message c a g data k d = .ok none) :
    a.mine d = false := by
  unfold message at h
  split at h
  · obtain ⟨m', hm', heq⟩ := map_ok_iff.1 h
    cases heq
  · rename_i hmine
    exact Bool.eq_false_iff.2 hmine

theorem messages_ok (h : messages c a g data = .ok ms) :
    data.length = ms.length ∧ ∀ k d m, data[k]? = some d → ms[k]? = some m →
      message c a g data k d = .ok m := by
  obtain ⟨hlen, hget⟩ := forall₂_iff_get.1 (mapM_ok_forall₂ h)
  rw [length_zipIdx] at hlen
  refine ⟨hlen, fun k d m hd hm => ?_⟩
  obtain ⟨hk, rfl⟩ := List.getElem?_eq_some_iff.1 hd
  obtain ⟨hk', rfl⟩ := List.getElem?_eq_some_iff.1 hm
  simpa using hget k (by rwa [length_zipIdx]) hk'

theorem signedInputs_getElem? {i' : Input R} :
    (signedInputs c a ms inputs)[k]? = some i' ↔
      ∃ i m, inputs[k]? = some i ∧ ms[k]? = some m ∧ i' = signedInput c a m i := by
  unfold signedInputs
  rw [getElem?_map, Option.map_eq_some_iff]
  constructor
  · intro h
    obtain ⟨e, he, rfl⟩ := h
    obtain ⟨hi, hm⟩ := getElem?_zip_eq_some.1 he
    exact ⟨e.1, e.2, hi, hm, rfl⟩
  · intro h
    obtain ⟨i, m, hi, hm, rfl⟩ := h
    exact ⟨(i, m), getElem?_zip_eq_some.2 ⟨hi, hm⟩, rfl⟩

theorem map_data_signedInputs (hlen : inputs.length = ms.length) :
    (signedInputs c a ms inputs).map (·.data) = inputs.map (·.data) := by
  unfold signedInputs
  rw [map_map]
  have hdata : ((·.data) ∘ fun e : Input R × Option SighashMsg => signedInput c a e.2 e.1) =
      (·.data) ∘ Prod.fst := by
    funext e
    exact signedInput_data e.2 e.1
  rw [hdata, ← map_map, map_fst_zip hlen.le]

theorem newSignatures_signedInputs (inputs : List (Input R)) :
    ((inputs.zip ms).map fun e => newSignatures e.1 (signedInput c a e.2 e.1)) =
      List.zipWith newSignatures inputs (signedInputs c a ms inputs) := by
  unfold signedInputs
  induction inputs generalizing ms with
  | nil => rfl
  | cons i inputs ih =>
    cases ms with
    | nil => rfl
    | cons m ms =>
      rw [zip_cons_cons, map_cons, map_cons, zipWith_cons_cons, ih]

/-- **Signing, as a function of the messages.** -/
theorem sign_eq (p : SigningPset R G) : sign c a p = (ready c a p.other p.data).map fun ms =>
      let inputs := signedInputs c a ms p.inputs
      ({ p with inputs := inputs }, (List.zipWith newSignatures p.inputs inputs).sum) := by
  unfold sign ready
  cases c.extractTx p.other p.data with
  | error e => rfl
  | ok u =>
    rw [except_ok_bind, except_ok_bind]
    cases messages c a p.other p.data with
    | error e => rfl
    | ok ms =>
      rw [except_ok_bind, except_ok_bind, signInputs_eq, SigningPset.data, zip_map_left,
        mapM_map, newSignatures_signedInputs, Nat.zero_add]
      dsimp only [Prod.map, Function.comp_def, id_eq]
      cases (p.inputs.zip ms).mapM fun e => canSign a e.2 e.1.data <;> rfl

theorem ready_messages (h : ready c a g data = .ok ms) : messages c a g data = .ok ms := by
  obtain ⟨u, hextract, h⟩ := except_bind_ok_iff.1 h
  obtain ⟨ms', hms, h⟩ := except_bind_ok_iff.1 h
  obtain ⟨_, hderive, h⟩ := except_bind_ok_iff.1 h
  cases h
  exact hms

theorem sign_ok {p p' : SigningPset R G} {n : Nat} (h : sign c a p = .ok (p', n)) :
    ∃ ms, ready c a p.other p.data = .ok ms ∧
      p' = { p with inputs := signedInputs c a ms p.inputs } ∧
      n = (List.zipWith newSignatures p.inputs (signedInputs c a ms p.inputs)).sum := by
  rw [sign_eq] at h
  obtain ⟨ms, hready, heq⟩ := map_ok_iff.1 h
  cases heq
  exact ⟨ms, hready, rfl, rfl⟩

end Psets

/-! ## The signatures of an input -/

variable (c : Crypto R G) (a : SwSigner)

/-- An entry of `bip32_derivation` has the signer's fingerprint, and the derived public key matches:
the key is `derived`. -/
def OwnsKey (d : InputData R) (k : BtcPublicKey) (derived : SecretKey) : Prop :=
  ∃ path, (k, (a.fingerprint, path)) ∈ d.bip32Derivation ∧ a.derivePriv path = .ok derived ∧
    k = ⟨true, c.publicKey derived⟩

/-- The internal key is the signer's, by an entry of `tap_key_origins`. -/
def OwnsInternalKey (d : InputData R) (x : BitVec 256) : Prop :=
  d.tapInternalKey = some x ∧ ∃ path derived, (x, (a.fingerprint, path)) ∈ d.tapKeyOrigins ∧
      a.derivePriv path = .ok derived ∧ (c.publicKey derived).x = x

/-- No key of both signers has the same origin. -/
def DistinctKeys (b : SwSigner) : Prop :=
  a.fingerprint = b.fingerprint → ∀ path da db, a.derivePriv path = .ok da →
    b.derivePriv path = .ok db → c.publicKey da ≠ c.publicKey db

section Signatures

variable {c : Crypto R G} {a b : SwSigner} {msg : SighashMsg} {d : InputData R}

theorem keySig_eq_some_iff {e : BtcPublicKey × KeySource} {s : BtcPublicKey × Bytes} :
    keySig c a msg d e = some s ↔
      ∃ derived, e.2.1 = a.fingerprint ∧ a.derivePriv e.2.2 = .ok derived ∧
        e.1 = ⟨true, c.publicKey derived⟩ ∧ s = (e.1, rawSig c a msg d derived) := by
  unfold keySig
  by_cases hfp : a.fingerprint = e.2.1
  · rw [if_pos hfp]
    cases hderive : a.derivePriv e.2.2 with
    | error err => simp
    | ok derived =>
      by_cases hkey : e.1 = ⟨true, c.publicKey derived⟩
      · simp [hkey, hfp, eq_comm]
      · simp [hkey]
  · rw [if_neg hfp]
    simp [Ne.symm hfp]

variable {s : SchnorrSig} {k : BtcPublicKey} {m : PartialSigs} {l : List (BtcPublicKey × Bytes)}

variable {e : BitVec 256 × KeySource} {v : Bytes} {s' : SchnorrSig}

theorem tapSig_eq_some_iff : tapSig c a msg d e = some s ↔
      ∃ derived hash, e.2.1 = a.fingerprint ∧ a.derivePriv e.2.2 = .ok derived ∧
        d.tapInternalKey = some e.1 ∧ (c.publicKey derived).x = e.1 ∧ msg = .tapSighash hash ∧
        s = ⟨c.tapTweak e.1 d.tapMerkleRoot, hash, schnorrHashTy d⟩ := by
  unfold tapSig
  by_cases hfp : e.2.1 = a.fingerprint
  · rw [if_pos hfp]
    cases hderive : a.derivePriv e.2.2 with
    | error err => simp
    | ok derived =>
      by_cases hx : (c.publicKey derived).x = e.1
      · by_cases hinternal : d.tapInternalKey = some e.1
        · cases msg <;> simp [hx, hinternal, hfp, eq_comm]
        · simp [hx, hinternal]
      · simp [hx]
  · rw [if_neg hfp]
    simp [hfp]

theorem mem_keySigs_iff : (k, v) ∈ d.bip32Derivation.filterMap (keySig c a msg d) ↔
      ∃ derived, OwnsKey c a d k derived ∧ v = rawSig c a msg d derived := by
  rw [mem_filterMap]
  constructor
  · intro h
    obtain ⟨⟨key, fp, path⟩, hmem, hsig⟩ := h
    obtain ⟨derived, hfp, hderive, hkey, heq⟩ := keySig_eq_some_iff.1 hsig
    cases heq
    cases hfp
    exact ⟨derived, ⟨path, hmem, hderive, hkey⟩, rfl⟩
  · intro h
    obtain ⟨derived, ⟨path, hmem, hderive, hkey⟩, rfl⟩ := h
    exact ⟨_, hmem, keySig_eq_some_iff.2 ⟨derived, rfl, hderive, hkey, rfl⟩⟩

theorem nodup_keySigs : ((d.bip32Derivation.filterMap (keySig c a msg d)).map (·.1)).Nodup := by
  refine List.Nodup.sublist ?_ d.nodup
  induction d.bip32Derivation with
  | nil => exact List.Sublist.slnil
  | cons e l ih =>
    cases hsig : keySig c a msg d e with
    | none =>
      rw [filterMap_cons_none hsig]
      exact ih.cons _
    | some s =>
      obtain ⟨derived, -, -, -, rfl⟩ := keySig_eq_some_iff.1 hsig
      rw [filterMap_cons_some hsig]
      exact ih.cons_cons _

theorem lookup_insertAll_of_notMem (hk : k ∉ l.map (·.1)) :
    (insertAll m l).lookup k = m.lookup k := by
  induction l generalizing m with
  | nil => rfl
  | cons e l ih =>
    rw [map_cons, mem_cons, not_or] at hk
    rw [insertAll_cons, ih hk.2, Finmap.lookup_insert_of_ne _ hk.1]

theorem lookup_insertAll_of_mem (hnodup : (l.map (·.1)).Nodup) (hmem : (k, v) ∈ l) :
    (insertAll m l).lookup k = some v := by
  induction l generalizing m with
  | nil => exact absurd hmem not_mem_nil
  | cons e l ih =>
    rw [map_cons, nodup_cons] at hnodup
    rw [insertAll_cons]
    cases hmem with
    | head => rw [lookup_insertAll_of_notMem hnodup.1, Finmap.lookup_insert]
    | tail _ hmem => exact ih hnodup.2 hmem

theorem insertAll_insertAll (hnodup : (l.map (·.1)).Nodup) :
    insertAll (insertAll m l) l = insertAll m l := by
  apply Finmap.ext_lookup
  intro k
  by_cases hk : k ∈ l.map (·.1)
  · obtain ⟨e, hmem, rfl⟩ := mem_map.1 hk
    rw [lookup_insertAll_of_mem hnodup hmem, lookup_insertAll_of_mem hnodup hmem]
  · rw [lookup_insertAll_of_notMem hk]

theorem insertAll_comm {r : List (BtcPublicKey × Bytes)} (hl : (l.map (·.1)).Nodup)
    (hr : (r.map (·.1)).Nodup) (hdisjoint : ∀ k ∈ l.map (·.1), k ∉ r.map (·.1)) :
    insertAll (insertAll m l) r = insertAll (insertAll m r) l := by
  apply Finmap.ext_lookup
  intro k
  by_cases hk : k ∈ l.map (·.1)
  · obtain ⟨e, hmem, rfl⟩ := mem_map.1 hk
    rw [lookup_insertAll_of_notMem (hdisjoint _ hk), lookup_insertAll_of_mem hl hmem,
      lookup_insertAll_of_mem hl hmem]
  · rw [lookup_insertAll_of_notMem hk]
    by_cases hk' : k ∈ r.map (·.1)
    · obtain ⟨e, hmem, rfl⟩ := mem_map.1 hk'
      rw [lookup_insertAll_of_mem hr hmem, lookup_insertAll_of_mem hr hmem]
    · rw [lookup_insertAll_of_notMem hk', lookup_insertAll_of_notMem hk',
        lookup_insertAll_of_notMem hk]

theorem keySigs_disjoint (hdistinct : DistinctKeys c a b)
    (ha : k ∈ (d.bip32Derivation.filterMap (keySig c a msg d)).map (·.1)) :
    k ∉ (d.bip32Derivation.filterMap (keySig c b msg d)).map (·.1) := by
  intro hb
  obtain ⟨⟨_, va⟩, hmema, rfl⟩ := mem_map.1 ha
  obtain ⟨⟨kb, vb⟩, hmemb, heq⟩ := mem_map.1 hb
  obtain ⟨da, ⟨patha, hea, hderivea, hka⟩, -⟩ := mem_keySigs_iff.1 hmema
  obtain ⟨db, ⟨pathb, heb, hderiveb, hkb⟩, -⟩ := mem_keySigs_iff.1 hmemb
  -- the map has one origin for a key
  have hentry := inj_on_of_nodup_map d.nodup hea heb heq.symm
  obtain ⟨-, hfp, rfl⟩ := by simpa using hentry
  have hkeys : (⟨true, c.publicKey da⟩ : BtcPublicKey) = ⟨true, c.publicKey db⟩ := by
    rw [← hka, ← hkb]
    exact heq.symm
  exact hdistinct hfp patha da db hderivea hderiveb (BtcPublicKey.mk.inj hkeys).2

theorem tapSig_unique {e' : BitVec 256 × KeySource} (h : tapSig c a msg d e = some s)
    (h' : tapSig c b msg d e' = some s') : s = s' := by
  obtain ⟨_, hash, _, _, hinternal, _, rfl, rfl⟩ := tapSig_eq_some_iff.1 h
  obtain ⟨_, hash', _, _, hinternal', _, hmsg, rfl⟩ := tapSig_eq_some_iff.1 h'
  cases hmsg
  rw [Option.some.inj (hinternal.symm.trans hinternal')]

theorem findSome_tapSig_unique {l : List (BitVec 256 × KeySource)}
    (h : l.findSome? (tapSig c a msg d) = some s) (h' : l.findSome? (tapSig c b msg d) = some s') :
    s = s' := by
  obtain ⟨e, -, he⟩ := exists_of_findSome?_eq_some h
  obtain ⟨e', -, he'⟩ := exists_of_findSome?_eq_some h'
  exact tapSig_unique he he'

theorem signedInput_idem (m : Option SighashMsg) (i : Input R) :
    signedInput c a m (signedInput c a m i) = signedInput c a m i := by
  cases m with
  | none => rfl
  | some m =>
    by_cases htap : i.data.isTaproot = true
    · have htap' : (signedInput c a (some m) i).data.isTaproot = true := by rwa [signedInput_data]
      rw [signedInput_of_tap htap', signedInput_of_tap htap]
      cases i.tapKeySig <;> cases i.data.tapKeyOrigins.findSome? (tapSig c a m i.data) <;> rfl
    · have htap' : ¬(signedInput c a (some m) i).data.isTaproot = true := by
        rwa [signedInput_data]
      rw [signedInput_of_not_tap htap', signedInput_of_not_tap htap]
      rw [insertAll_insertAll nodup_keySigs]

theorem signedInput_comm (hdistinct : DistinctKeys c a b) {ma mb : Option SighashMsg}
    (hsame : ∀ x y, ma = some x → mb = some y → x = y) (i : Input R) :
    signedInput c b mb (signedInput c a ma i) = signedInput c a ma (signedInput c b mb i) := by
  cases ma with
  | none => rfl
  | some ma =>
    cases mb with
    | none => rfl
    | some mb =>
      obtain rfl := hsame ma mb rfl rfl
      by_cases htap : i.data.isTaproot = true
      · have htap' (a : SwSigner) : (signedInput c a (some ma) i).data.isTaproot = true := by
          rwa [signedInput_data]
        rw [signedInput_of_tap (htap' a), signedInput_of_tap (htap' b),
          signedInput_of_tap htap, signedInput_of_tap htap]
        cases i.tapKeySig with
        | some sig => rfl
        | none =>
          cases hsiga : i.data.tapKeyOrigins.findSome? (tapSig c a ma i.data) with
          | none =>
            cases i.data.tapKeyOrigins.findSome? (tapSig c b ma i.data) <;> rfl
          | some siga =>
            cases hsigb : i.data.tapKeyOrigins.findSome? (tapSig c b ma i.data) with
            | none => rfl
            | some sigb =>
              rw [findSome_tapSig_unique hsiga hsigb]
      · have htap' (a : SwSigner) : ¬(signedInput c a (some ma) i).data.isTaproot = true := by
          rwa [signedInput_data]
        rw [signedInput_of_not_tap (htap' a), signedInput_of_not_tap (htap' b),
          signedInput_of_not_tap htap, signedInput_of_not_tap htap]
        rw [insertAll_comm nodup_keySigs nodup_keySigs fun k => keySigs_disjoint hdistinct]

end Signatures

/-! ## Frame, idempotence and commutation -/

/-- The partial signatures of an input that is not taproot, after signing: one for every key of the
signer, the others as before. -/
def KeySigned (c : Crypto R G) (a : SwSigner) (msg : Except SignError SighashMsg)
    (i i' : Input R) : Prop :=
  i'.tapKeySig = i.tapKeySig ∧ (∀ k derived, OwnsKey c a i.data k derived →
      ∃ m, msg = .ok m ∧ i'.partialSigs.lookup k = some (rawSig c a m i.data derived)) ∧
    ∀ k, (∀ derived, ¬OwnsKey c a i.data k derived) →
      i'.partialSigs.lookup k = i.partialSigs.lookup k

/-- The signature of a taproot input, after signing: as before if it was signed or the internal key
is not the signer's. -/
def TapSigned (c : Crypto R G) (a : SwSigner) (msg : Except SignError SighashMsg)
    (i i' : Input R) : Prop :=
  i'.partialSigs = i.partialSigs ∧ (∀ x, i.tapKeySig = none → OwnsInternalKey c a i.data x →
      ∃ hash, msg = .ok (.tapSighash hash) ∧
        i'.tapKeySig = some ⟨c.tapTweak x i.data.tapMerkleRoot, hash, schnorrHashTy i.data⟩) ∧
    (i.tapKeySig ≠ none ∨ (∀ x, ¬OwnsInternalKey c a i.data x) → i'.tapKeySig = i.tapKeySig)

/-- A PSET is another one, signed, with so many new signatures. Only `partial_sigs` and
`tap_key_sig` of the inputs change. -/
structure Signed (c : Crypto R G) (a : SwSigner) (p p' : SigningPset R G) (n : Nat) : Prop where
  other : p'.other = p.other
  data : p'.data = p.data
  keys : ∀ k i i', p.inputs[k]? = some i → p'.inputs[k]? = some i' → i.data.isTaproot = false →
    KeySigned c a (c.sighashMsg p.other p.data k) i i'
  taproot : ∀ k i i', p.inputs[k]? = some i → p'.inputs[k]? = some i' → i.data.isTaproot = true →
    TapSigned c a (c.sighashMsg p.other p.data k) i i'
  count : n = (List.zipWith newSignatures p.inputs p'.inputs).sum

section Framed

variable {c : Crypto R G} {a b : SwSigner} {g : G} {data : List (InputData R)}

variable {d : InputData R} {k : Nat} {m : Option SighashMsg} {i : Input R}
  {ma mb : List (Option SighashMsg)}

theorem OwnsKey.mine {k : BtcPublicKey} {derived : SecretKey} (h : OwnsKey c a d k derived)
    (htap : d.isTaproot = false) : a.mine d = true := by
  obtain ⟨path, hmem, -, -⟩ := h
  unfold SwSigner.mine
  rw [htap, if_neg Bool.false_ne_true]
  exact any_eq_true.2 ⟨_, hmem, decide_eq_true rfl⟩

theorem OwnsInternalKey.mine {x : BitVec 256} (h : OwnsInternalKey c a d x)
    (htap : d.isTaproot = true) : a.mine d = true := by
  obtain ⟨-, path, derived, hmem, -, -⟩ := h
  unfold SwSigner.mine
  rw [if_pos htap]
  exact any_eq_true.2 ⟨_, hmem, decide_eq_true rfl⟩

theorem signedInput_keySigned (hmsg : message c a g data k i.data = .ok m)
    (htap : i.data.isTaproot = false) :
    KeySigned c a (c.sighashMsg g data k) i (signedInput c a m i) := by
  cases m with
  | none =>
    have hmine := message_none hmsg
    refine ⟨rfl, fun key derived howns => ?_, fun key _ => rfl⟩
    rw [howns.mine htap] at hmine
    cases hmine
  | some m =>
    rw [signedInput_of_not_tap (Bool.eq_false_iff.1 htap)]
    refine ⟨rfl, fun key derived howns => ⟨m, message_some hmsg, ?_⟩, fun key hno => ?_⟩
    · exact lookup_insertAll_of_mem nodup_keySigs (mem_keySigs_iff.2 ⟨derived, howns, rfl⟩)
    · apply lookup_insertAll_of_notMem
      intro hkey
      obtain ⟨⟨_, v⟩, hmem, rfl⟩ := mem_map.1 hkey
      obtain ⟨derived, howns, -⟩ := mem_keySigs_iff.1 hmem
      exact hno derived howns

theorem signedInput_tapSigned (hdata : data[k]? = some i.data)
    (hmsg : message c a g data k i.data = .ok m) (htap : i.data.isTaproot = true) :
    TapSigned c a (c.sighashMsg g data k) i (signedInput c a m i) := by
  cases m with
  | none =>
    have hmine := message_none hmsg
    refine ⟨rfl, fun x _ howns => ?_, fun _ => rfl⟩
    rw [howns.mine htap] at hmine
    cases hmine
  | some m =>
    have hm := message_some hmsg
    obtain ⟨hash, rfl⟩ := c.sighashMsg_tap g data k i.data m hdata htap hm
    rw [signedInput_of_tap htap]
    refine ⟨rfl, fun x hnone howns => ⟨hash, hm, ?_⟩, fun hkeep => ?_⟩
    · obtain ⟨hinternal, path, derived, hmem, hderive, hx⟩ := howns
      have hsig : tapSig c a (.tapSighash hash) i.data (x, (a.fingerprint, path)) = some _ :=
        tapSig_eq_some_iff.2 ⟨derived, hash, rfl, hderive, hinternal, hx, rfl, rfl⟩
      rw [hnone, Option.orElse_eq_orElse, Option.orElse_none]
      -- every entry that signs gives this signature
      cases hfind : i.data.tapKeyOrigins.findSome? (tapSig c a (.tapSighash hash) i.data) with
      | none =>
        rw [findSome?_eq_none_iff] at hfind
        rw [hfind _ hmem] at hsig
        cases hsig
      | some sig =>
        obtain ⟨e, -, he⟩ := exists_of_findSome?_eq_some hfind
        rw [tapSig_unique he hsig]
    · dsimp only
      cases hold : i.tapKeySig with
      | some sig => rfl
      | none =>
        rw [Option.orElse_eq_orElse, Option.orElse_none, findSome?_eq_none_iff]
        intro e hmem
        by_contra hsome
        obtain ⟨sig, hsig⟩ := Option.ne_none_iff_exists'.1 hsome
        obtain ⟨derived, _, hfp, hderive, hinternal, hx, -, -⟩ := tapSig_eq_some_iff.1 hsig
        obtain ⟨key, fp, path⟩ := e
        cases hfp
        exact hkeep.elim (fun h => h hold)
          fun h => h key ⟨hinternal, path, derived, hmem, hderive, hx⟩

variable {p p' : SigningPset R G} {n : Nat} {ms : List (Option SighashMsg)}

theorem data_signed (h : ready c a p.other p.data = .ok ms) :
    SigningPset.data { p with inputs := signedInputs c a ms p.inputs } = p.data := by
  have hlen := (messages_ok (ready_messages h)).1
  rw [SigningPset.data, length_map] at hlen
  exact map_data_signedInputs hlen

theorem sign_signed (h : sign c a p = .ok (p', n)) : Signed c a p p' n := by
  obtain ⟨ms, hready, rfl, hcount⟩ := sign_ok h
  have hmsgs := (messages_ok (ready_messages hready)).2
  have hdata (k : Nat) (i : Input R) (hi : p.inputs[k]? = some i) : p.data[k]? = some i.data := by
    rw [SigningPset.data, getElem?_map, hi, Option.map_some]
  refine ⟨rfl, data_signed hready, fun k i i' hi hi' htap => ?_, fun k i i' hi hi' htap => ?_,
    hcount⟩
  all_goals
    obtain ⟨j, m, hj, hm, rfl⟩ := signedInputs_getElem?.1 hi'
    obtain rfl := Option.some.inj (hi.symm.trans hj)
    have hmsg := hmsgs k i.data m (hdata k i hi) hm
  · exact signedInput_keySigned hmsg htap
  · exact signedInput_tapSigned (hdata k i hi) hmsg htap

theorem signedInputs_idem (inputs : List (Input R)) :
    signedInputs c a ms (signedInputs c a ms inputs) = signedInputs c a ms inputs := by
  unfold signedInputs
  induction inputs generalizing ms with
  | nil => rfl
  | cons i inputs ih =>
    cases ms with
    | nil => rfl
    | cons m ms =>
      simp only [zip_cons_cons, map_cons, ih, signedInput_idem]

theorem sign_again (h : sign c a p = .ok (p', n)) : sign c a p' = .ok (p', 0) := by
  obtain ⟨ms, hready, rfl, -⟩ := sign_ok h
  rw [sign_eq, data_signed hready, hready]
  have hcount (l : List (Input R)) : (zipWith newSignatures l l).sum = 0 := by
    simp [zipWith_self, newSignatures_self]
  dsimp only [Except.map]
  rw [signedInputs_idem, hcount]

theorem messages_same (ha : messages c a g data = .ok ma) (hb : messages c b g data = .ok mb)
    {x y : SighashMsg} (hx : ma[k]? = some (some x)) (hy : mb[k]? = some (some y)) : x = y := by
  obtain ⟨hlen, hmsga⟩ := messages_ok ha
  obtain ⟨hk, -⟩ := List.getElem?_eq_some_iff.1 hx
  rw [← hlen] at hk
  have hd := getElem?_eq_getElem hk
  have hsame := (message_some (hmsga k _ _ hd hx)).symm.trans
    (message_some ((messages_ok hb).2 k _ _ hd hy))
  exact Except.ok.inj hsame

theorem signedInputs_comm (hdistinct : DistinctKeys c a b)
    (hsame : ∀ (k : Nat) x y, ma[k]? = some (some x) → mb[k]? = some (some y) → x = y)
    (inputs : List (Input R)) : signedInputs c b mb (signedInputs c a ma inputs) =
      signedInputs c a ma (signedInputs c b mb inputs) := by
  unfold signedInputs
  induction inputs generalizing ma mb with
  | nil => rfl
  | cons i inputs ih =>
    cases ma with
    | nil => cases mb <;> rfl
    | cons m ma =>
      cases mb with
      | nil => rfl
      | cons m' mb =>
        have hhead (x y : SighashMsg) (hx : m = some x) (hy : m' = some y) : x = y :=
          hsame 0 x y (congrArg some hx) (congrArg some hy)
        have htail := ih fun k => hsame (k + 1)
        simp only [zip_cons_cons, map_cons, signedInput_comm hdistinct hhead, htail]

theorem sign_comm {pa pb : SigningPset R G} {na nb : Nat} (hdistinct : DistinctKeys c a b)
    (ha : sign c a p = .ok (pa, na)) (hb : sign c b p = .ok (pb, nb)) :
    ∃ q n m, sign c b pa = .ok (q, n) ∧ sign c a pb = .ok (q, m) := by
  obtain ⟨ma, hreadya, rfl, -⟩ := sign_ok ha
  obtain ⟨mb, hreadyb, rfl, -⟩ := sign_ok hb
  have hcomm := signedInputs_comm hdistinct
    (fun k x y => messages_same (ready_messages hreadya) (ready_messages hreadyb)) p.inputs
  have hab := sign_eq (c := c) (a := b) { p with inputs := signedInputs c a ma p.inputs }
  have hba := sign_eq (c := c) (a := a) { p with inputs := signedInputs c b mb p.inputs }
  rw [data_signed hreadya, hreadyb] at hab
  rw [data_signed hreadyb, hreadya] at hba
  dsimp only [Except.map] at hab hba
  rw [← hcomm] at hba
  exact ⟨_, _, _, hab, hba⟩

/-- **Software signing is framed, idempotent and commutes.** A signer changes partial signatures and
key-path signatures only, and exactly those of its keys; it returns how many are new. Signing again
changes nothing and returns zero. Two signers with distinct keys give the same PSET in either
order. -/
theorem sign_framed {pa pb : SigningPset R G} {na nb : Nat} (hdistinct : DistinctKeys c a b)
    (ha : sign c a p = .ok (pa, na)) (hb : sign c b p = .ok (pb, nb)) :
    Signed c a p pa na ∧ sign c a pa = .ok (pa, 0) ∧
      ∃ q n m, sign c b pa = .ok (q, n) ∧ sign c a pb = .ok (q, m) :=
  ⟨sign_signed ha, sign_again ha, sign_comm hdistinct ha hb⟩

end Framed

namespace TwoSigners

def crypto : Crypto Unit Unit where
  publicKey k := ⟨false, k⟩
  tapTweak x _ := x + 1
  signEcdsaLowR msg k := [msg.toNat.toUInt8, k.toNat.toUInt8]
  signEcdsa msg k := [msg.toNat.toUInt8, k.toNat.toUInt8, 0]
  extractTx _ _ := .ok ()
  sighashMsg _ l k :=
    if l[k]?.any InputData.isTaproot then .ok (.tapSighash (BitVec.ofNat 256 k))
    else .ok (.ecdsaSighash (BitVec.ofNat 256 k))
  sighashMsg_tap _ _ k _ _ hd htap h := by
    simp only [hd, Option.any_some, htap, if_true, Except.ok.injEq] at h
    exact ⟨_, h.symm⟩

def signer (n : Nat) : SwSigner where
  fingerprint := 7
  derivePriv path := .ok (BitVec.ofNat 256 (2 * path.length + n))
  ecdsaSignOpt := .lowR

def cosigned : InputData Unit where
  witnessUtxo := none
  sighashType := none
  bip32Derivation := [(⟨true, ⟨false, 0⟩⟩, (7, [])), (⟨true, ⟨false, 1⟩⟩, (7, []))]
  nodup := by decide
  tapKeyOrigins := []
  tapInternalKey := none
  tapMerkleRoot := none
  other := ()

def taproot : InputData Unit where
  witnessUtxo := some (0x51 :: 0x20 :: List.replicate 32 0)
  sighashType := none
  bip32Derivation := []
  nodup := by decide
  tapKeyOrigins := [(0, (7, []))]
  tapInternalKey := some 0
  tapMerkleRoot := none
  other := ()

def pset : SigningPset Unit Unit where
  inputs := [⟨cosigned, (∅ : PartialSigs).insert ⟨true, ⟨true, 5⟩⟩ [9], none⟩, ⟨taproot, ∅, none⟩]
  other := ()

theorem distinctKeys : DistinctKeys crypto (signer 0) (signer 1) := by
  intro _ path da db hda hdb heq
  cases hda
  cases hdb
  have hx : BitVec.ofNat 256 (2 * path.length + 0) = BitVec.ofNat 256 (2 * path.length + 1) :=
    congrArg PublicKey.x heq
  have hnat := congrArg BitVec.toNat hx
  rw [BitVec.toNat_ofNat, BitVec.toNat_ofNat] at hnat
  omega

/-- Either signer adds a partial signature, and the first one the signature of the taproot input. -/
theorem sign_framed_twoSigners : ∃ pa pb, sign crypto (signer 0) pset = .ok (pa, 2) ∧
      sign crypto (signer 1) pset = .ok (pb, 1) ∧ Signed crypto (signer 0) pset pa 2 ∧
      sign crypto (signer 0) pa = .ok (pa, 0) ∧
      ∃ q n m, sign crypto (signer 1) pa = .ok (q, n) ∧ sign crypto (signer 0) pb = .ok (q, m) :=
  ⟨_, _, rfl, rfl, sign_framed distinctKeys rfl rfl⟩

end TwoSigners

end SwSigner

end Swk
