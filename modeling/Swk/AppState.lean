import Swk.Contract
import Swk.HashMap
import Swk.PsetCreate
import Swk.SwapData

/-!
# The state of the server

`lwk_app` keeps wallets, signers, assets and memos in hash maps, under the names the user gave
them. This module has those maps and the checks made where an entry is added, following `state.rs`:
a name is taken once, no two wallets have the same first address and no two signers the same
fingerprint. An issued asset takes two entries, one under its id and one under the id of its
reissuance token.

Parsing, key derivation and hashing are third-party code and gathered in `Library`; what a Jade, the
registry and the chain answer while a request is handled is a `World`.
-/

namespace Swk.App

open List

open Boltz (Mnemonic Xpriv XKeyIdentifier)
open Registry (Contract RegistryAssetData)

/-- `bip32::Fingerprint`: the first bytes of a key identifier. -/
abbrev Fingerprint := BitVec 32

/-- `lwk_app::Error`, as far as the modelled requests raise it. -/
inductive Error
  | serdeJson (msg : String)
  | jade (msg : String)
  | wollet (e : Swk.Error)
  | registry (e : Registry.Error)
  | address (msg : String)
  | hexArray (msg : String)
  | elementsEncode (msg : String)
  | signerNew (msg : String)
  | signer (msg : String)
  | walletNotExist (name : String)
  | walletAlreadyLoaded (name : String)
  | signerNotExist (name : String)
  | signerAlreadyLoaded (name : String)
  | assetNotExist (asset : String)
  | assetAlreadyInserted (asset : String)
  | poisonError
  /-- A line of the state file that was not accepted, with its number. -/
  | startStateLoad (e : Error) (line : Nat)
  | generic (msg : String)
  /-- A failed `expect`: the code panics. -/
  | expectFailed (msg : String)

/-! ## What the server calls -/

/-- A type with `FromStr` and `Display`. -/
structure TextForm (α : Type) where
  fromStr : String → Except String α
  toStr : α → String

/-- What was read from a text is read from its own text again. -/
def TextForm.RoundTrips {α : Type} (f : TextForm α) : Prop :=
  ∀ s a, f.fromStr s = .ok a → f.fromStr (f.toStr a) = .ok a

/-- Third-party code, and the parts of the wallet library modelled elsewhere. -/
structure Library where
  hashing : Registry.Hashing
  secp : Secp
  descriptor : TextForm WolletDescriptor
  mnemonic : TextForm Mnemonic
  fingerprint : TextForm Fingerprint
  xkeyIdentifier : TextForm XKeyIdentifier
  txid : TextForm Txid
  address : TextForm Address
  assetId : TextForm AssetId
  transaction : TextForm Transaction
  isMainnet : WolletDescriptor → Bool
  /-- `WolletBuilder::build`, over a file store that works. -/
  build : WolletDescriptor → Except Swk.Error Unit
  ctDescriptorToString : ConfidentialDescriptor → String
  newMaster : Mnemonic → Bool → Except String Xpriv
  xprivFingerprint : Xpriv → Fingerprint

/-- The answers the server gets from outside while it handles one request. -/
structure World where
  /-- `Jade::from_socket`, the connection to an emulator. -/
  jadeFromSocket : String → Except String Unit
  jadeFingerprint : XKeyIdentifier → Except String Fingerprint
  /-- `Registry::fetch_with_tx`: the texts of the contract and of the issuance transaction. -/
  fetchWithTx : AssetId → Except Swk.Error (String × String)

/-- `Config`, as far as the modelled requests read it. -/
structure Config where
  isMainnet : Bool
  policyAsset : AssetId

/-! ## Signers -/

/-- `SwSigner`, created from a mnemonic. -/
structure SwSigner where
  mnemonic : Mnemonic
  xprv : Xpriv

inductive AnySigner
  | software (s : SwSigner)
  | jade (id : XKeyIdentifier)

inductive AppSignerInner
  | jadeId (id : XKeyIdentifier)
  | availableSigner (s : AnySigner)
  | externalSigner (fingerprint : Fingerprint)

structure AppSigner where
  inner : AppSignerInner
  persist : Bool

namespace AppSigner

/-- `SwSigner::new`, then `AppSigner::new_sw`. -/
def newSw (lib : Library) (mnemonic : String) (isMainnet persist : Bool) :
    Except Error AppSigner := do
  let mnemonic ← (lib.mnemonic.fromStr mnemonic).mapError .signerNew
  let xprv ← (lib.newMaster mnemonic isMainnet).mapError .signerNew
  pure ⟨.availableSigner (.software ⟨mnemonic, xprv⟩), persist⟩

def newJade (w : World) (id : XKeyIdentifier) (emulator : Option String) : Except Error AppSigner :=
  match emulator with
  | some socket => do
      (w.jadeFromSocket socket).mapError .jade
      pure ⟨.availableSigner (.jade id), true⟩
  | none => .ok ⟨.jadeId id, true⟩

def newExternal (fingerprint : Fingerprint) : AppSigner := ⟨.externalSigner fingerprint, false⟩

def idToFingerprint (id : XKeyIdentifier) : Fingerprint := id.extractLsb' 128 32

def fingerprint (lib : Library) (w : World) (s : AppSigner) : Except Error Fingerprint :=
  match s.inner with
  | .availableSigner (.software sw) => .ok (lib.xprivFingerprint sw.xprv)
  | .availableSigner (.jade id) => (w.jadeFingerprint id).mapError .signer
  | .externalSigner f => .ok f
  | .jadeId id => .ok (idToFingerprint id)

def mnemonic (s : AppSigner) : Option Mnemonic :=
  match s.inner with
  | .availableSigner (.software sw) => some sw.mnemonic
  | _ => none

end AppSigner

/-! ## Named entries -/

section InsertNew

variable {K V : Type} [DecidableEq K]

/-- The names whose value has a given key. One value without a key is enough to fail. -/
def namesMatching (key : V → Except Error K) (m : HashMap String V) (k : K) :
    Except Error (List String) := do
  let keys ← m.values.mapM key
  pure (((m.keys.zip keys).filter fun p => p.2 = k).map (·.1))

/-- Add a value under a new name, unless one with the same key is there. -/
def insertNew (key : V → Except Error K) (alreadyLoaded : String → Error) (m : HashMap String V)
    (name : String) (v : V) : Except Error (HashMap String V) := do
  require (decide (name ∉ m)) (alreadyLoaded name)
  let k ← key v
  match ← namesMatching key m k with
  | existing :: _ => .error (alreadyLoaded existing)
  | [] => pure (m.insert name v)

structure Fits (key : V → Except Error K) (m : HashMap String V) (name : String) (v : V) :
    Prop where
  name : m.lookup name = none
  key : ∃ k, key v = .ok k ∧ ∀ n v', m.lookup n = some v' → ∃ k', key v' = .ok k' ∧ k' ≠ k

variable {key : V → Except Error K} {alreadyLoaded : String → Error} {m m' : HashMap String V}
  {name : String} {v : V}

theorem matching_nil_iff {k : K} {l : List (Σ _ : String, V)} :
    (∃ keys, (l.map (·.2)).mapM key = .ok keys ∧
        ((l.map (·.1)).zip keys).filter (fun p => decide (p.2 = k)) = []) ↔
      ∀ e ∈ l, ∃ k', key e.2 = .ok k' ∧ k' ≠ k := by
  induction l with
  | nil =>
    constructor
    · intro _ e he
      cases he
    · intro _
      exact ⟨[], rfl, rfl⟩
  | cons e l ih =>
    rw [forall_mem_cons, ← ih, map_cons, mapM_cons]
    constructor
    · rintro ⟨keys, hkeys, hnil⟩
      obtain ⟨k', hk', hkeys⟩ := except_bind_ok_iff.1 hkeys
      obtain ⟨rest, hrest, hkeys⟩ := except_bind_ok_iff.1 hkeys
      cases hkeys
      rw [map_cons, zip_cons_cons, filter_cons] at hnil
      by_cases hk : k' = k
      · simp [hk] at hnil
      · exact ⟨⟨k', hk', hk⟩, rest, hrest, by simpa [hk] using hnil⟩
    · rintro ⟨⟨k', hk', hk⟩, rest, hrest, hnil⟩
      refine ⟨k' :: rest, ?_, ?_⟩
      · rw [hk', hrest]
        rfl
      · rw [map_cons, zip_cons_cons, filter_cons]
        simpa [hk] using hnil

theorem namesMatching_nil_iff {k : K} : namesMatching key m k = .ok [] ↔
      ∀ n v', m.lookup n = some v' → ∃ k', key v' = .ok k' ∧ k' ≠ k := by
  have hentries : (∀ e ∈ m.entries, ∃ k', key e.2 = .ok k' ∧ k' ≠ k) ↔
      ∀ n v', m.lookup n = some v' → ∃ k', key v' = .ok k' ∧ k' ≠ k := by
    constructor
    · intro h n v' hn
      exact h ⟨n, v'⟩ (HashMap.mem_entries_iff.2 hn)
    · intro h e he
      exact h e.1 e.2 (HashMap.mem_entries_iff.1 he)
  rw [← hentries, ← matching_nil_iff, namesMatching, except_bind_ok_iff]
  refine exists_congr fun keys => and_congr Iff.rfl ?_
  constructor
  · intro h
    exact map_eq_nil_iff.1 (Except.ok.inj h)
  · intro h
    exact congrArg Except.ok (map_eq_nil_iff.2 h)

theorem insertNew_ok_iff :
    insertNew key alreadyLoaded m name v = .ok m' ↔ Fits key m name v ∧ m' = m.insert name v := by
  rw [insertNew, except_bind_ok_iff]
  constructor
  · rintro ⟨u, hname, h⟩
    obtain ⟨k, hk, h⟩ := except_bind_ok_iff.1 h
    obtain ⟨names, hnames, h⟩ := except_bind_ok_iff.1 h
    have hfresh : name ∉ m := of_decide_eq_true (require_ok_iff.1 hname)
    cases names with
    | cons existing rest => cases h
    | nil =>
      cases h
      exact ⟨⟨AList.lookup_eq_none.2 hfresh, k, hk, namesMatching_nil_iff.1 hnames⟩, rfl⟩
  · rintro ⟨⟨hname, k, hk, hothers⟩, rfl⟩
    refine ⟨(), require_ok_iff.2 (decide_eq_true (AList.lookup_eq_none.1 hname)), ?_⟩
    rw [hk]
    show (namesMatching key m k >>= _) = _
    rw [namesMatching_nil_iff.2 hothers]
    rfl

omit [DecidableEq K] in
theorem Fits.same (h : Fits key m name v) (hs : HashMap.Same m m') : Fits key m' name v where
  name := (hs name).symm.trans h.name
  key := by
    obtain ⟨k, hk, hothers⟩ := h.key
    exact ⟨k, hk, fun n v' hn => hothers n v' ((hs n).trans hn)⟩

end InsertNew

/-! ## Wallets, assets and memos -/

/-- A wallet is its descriptor: what it has seen of the chain is not part of the server's own
state. -/
abbrev Wollets := HashMap String WolletDescriptor

abbrev Signers := HashMap String AppSigner

/-- `Wollet::address` at index 0. -/
def firstAddr (lib : Library) (d : WolletDescriptor) : Except Error Address :=
  if d.spkCount.isNone && !d.hasWildcard then .error (.wollet .indexWithoutWildcard)
  else (d.innerAddress lib.secp 0 .external).mapError .wollet

def Wollets.insert (lib : Library) (m : Wollets) (name : String) (d : WolletDescriptor) :
    Except Error Wollets :=
  insertNew (firstAddr lib) .walletAlreadyLoaded m name d

def Signers.insert (lib : Library) (w : World) (m : Signers) (name : String) (s : AppSigner) :
    Except Error Signers :=
  insertNew (AppSigner.fingerprint lib w) .signerAlreadyLoaded m name s

inductive AppAsset
  | policyAsset (asset : AssetId)
  | registryAsset (data : RegistryAssetData)
  | reissuanceToken (data : RegistryAssetData)

abbrev Assets := HashMap AssetId AppAsset

/-- `State::insert_asset`, once the data is there. -/
def Assets.insertData (m : Assets) (d : RegistryAssetData) : Assets :=
  (m.insert d.assetId (.registryAsset d)).insert d.tokenId (.reissuanceToken d)

/-- `TxMemos` and `AddrMemos`: the memos of each wallet. -/
abbrev Memos (K : Type) := HashMap String (HashMap K String)

namespace Memos

variable {K : Type} [DecidableEq K]

variable (m : Memos K) (wollet : String)

def forWollet : HashMap K String := (m.lookup wollet).getD ∅

def set (k : K) (memo : String) : Memos K :=
  match m.lookup wollet with
  | some wolletMemos => m.insert wollet (wolletMemos.insert k memo)
  | none => m.insert wollet ((∅ : HashMap K String).insert k memo)

theorem set_eq (k : K) (memo : String) :
    m.set wollet k memo = m.insert wollet ((m.forWollet wollet).insert k memo) := by
  rw [set, forWollet]
  cases m.lookup wollet <;> rfl

def Same (m' : Memos K) : Prop :=
  ∀ wollet, HashMap.Same (m.forWollet wollet) (m'.forWollet wollet)

end Memos

/-- `State`, without what the scanning thread uses. -/
structure State where
  config : Config
  wollets : Wollets
  signers : Signers
  assets : Assets
  txMemos : Memos Txid
  addrMemos : Memos Address
  doPersist : Bool

/-- The state a server starts with: `App::run` has inserted the policy asset. -/
def State.new (config : Config) : State where
  config := config
  wollets := ∅
  signers := ∅
  assets := (∅ : Assets).insert config.policyAsset (.policyAsset config.policyAsset)
  txMemos := ∅
  addrMemos := ∅
  doPersist := false

/-- Two states with the same content, whatever the order of their maps. -/
structure State.Same (s t : State) : Prop where
  config : s.config = t.config
  wollets : HashMap.Same s.wollets t.wollets
  signers : HashMap.Same s.signers t.signers
  assets : HashMap.Same s.assets t.assets
  txMemos : s.txMemos.Same t.txMemos
  addrMemos : s.addrMemos.Same t.addrMemos

namespace State.Same

variable {s t u : State}

theorem refl (s : State) : Same s s :=
  ⟨rfl, .refl _, .refl _, .refl _, fun _ => .refl _, fun _ => .refl _⟩

theorem symm (h : Same s t) : Same t s :=
  ⟨h.config.symm, h.wollets.symm, h.signers.symm, h.assets.symm, fun n => (h.txMemos n).symm,
    fun n => (h.addrMemos n).symm⟩

theorem trans (h : Same s t) (h' : Same t u) : Same s u :=
  ⟨h.config.trans h'.config, h.wollets.trans h'.wollets, h.signers.trans h'.signers,
    h.assets.trans h'.assets, fun n => (h.txMemos n).trans (h'.txMemos n),
    fun n => (h.addrMemos n).trans (h'.addrMemos n)⟩

end State.Same

end Swk.App
