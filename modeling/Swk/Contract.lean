import Swk.Json
import Swk.RawTransaction
import Swk.StateExcept
import Swk.Transactions

/-!
# Asset contracts

An asset id commits to a contract, a JSON document, through the hash of its text. `contract.rs`
reads six fields out of that document and keeps the document itself beside them: the hash is taken
over the document, so a contract may carry more than the six fields (`Contract.contractHash`).

Written out again, a contract is its six fields and nothing else (`Contract.contractStr`). Reading
that text back gives the contract it came from exactly when the document had nothing but the six
fields, spelled the way the wallet spells them (`Contract.Canonical`); otherwise the new document
has another hash, and the registry data of the asset can be built from it only if the two hashes
collide (`RegistryAssetData.new_iff`).

The fields are public and the document is not, so a contract that is changed keeps the document it
was read from. The hash of a contract stands for its fields exactly when the two say the same
(`Contract.InSync`), and this one condition decides whether the text of the contract, its equality
and the check of an issuance against it can be trusted (`Contract.commitment_holds_iff`).
-/

namespace Swk

/-! ## Hexadecimal text -/

/-- The value of a hexadecimal digit of either case. -/
def hexDigit (c : Char) : Option Nat :=
  if '0' ≤ c ∧ c ≤ '9' then some (c.toNat - '0'.toNat)
  else if 'a' ≤ c ∧ c ≤ 'f' then some (c.toNat - 'a'.toNat + 10)
  else if 'A' ≤ c ∧ c ≤ 'F' then some (c.toNat - 'A'.toNat + 10)
  else none

def hexBytes : List Char → Option (List UInt8)
  | [] => some []
  | [_] => none
  | high :: low :: l => do
      let high ← hexDigit high
      let low ← hexDigit low
      let rest ← hexBytes l
      pure (.ofNat (16 * high + low) :: rest)

def fromHex (s : String) : Option (List UInt8) := hexBytes s.toList

theorem hexDigit_digitChar : ∀ n < 16, hexDigit n.digitChar = some n := by
  decide

theorem hexBytes_digits (bytes : List UInt8) :
    hexBytes (bytes.flatMap fun b => [(b.toNat / 16).digitChar, (b.toNat % 16).digitChar]) =
      some bytes := by
  induction bytes with
  | nil => rfl
  | cons b bytes ih =>
    have hhigh : b.toNat / 16 < 16 := by
      have hb := b.toNat_lt
      omega
    have hsum : 16 * (b.toNat / 16) + b.toNat % 16 = b.toNat := Nat.div_add_mod b.toNat 16
    rw [List.flatMap_cons, List.cons_append, List.cons_append, List.nil_append, hexBytes,
      hexDigit_digitChar _ hhigh, hexDigit_digitChar _ (Nat.mod_lt _ (by decide)), ih]
    show some (UInt8.ofNat (16 * (b.toNat / 16) + b.toNat % 16) :: bytes) = _
    rw [hsum, UInt8.ofNat_toNat]

theorem fromHex_toHex (bytes : List UInt8) : fromHex (toHex bytes) = some bytes := by
  rw [fromHex, toHex, String.toList_ofList, hexBytes_digits]

namespace Registry

/-- `lwk_wollet::Error`, as far as contracts raise it. The last two name the asset. -/
inductive Error
  | serdeJson
  | contractDoesNotCommitToAssetId
  | invalidContractForAsset (assetId : AssetId)
  | invalidIssuanceTxtForAsset (assetId : AssetId)
deriving DecidableEq

/-! ## The fields of a contract -/

/-- `Entity`: the domain of the issuer. -/
inductive Entity
  | domain (d : String)
deriving DecidableEq

structure ContractFields where
  entity : Entity
  issuerPubkey : List UInt8
  name : String
  precision : UInt8
  ticker : String
  version : UInt8
deriving DecidableEq

/-- A `u8` of a JSON value. -/
def asU8 : Json → Option UInt8
  | .int n => if 0 ≤ n ∧ n < 256 then some (.ofNat n.toNat) else none
  | _ => none

def Entity.fromValue : Json → Option Entity
  | .obj [("domain", .str d)] => some (.domain d)
  | _ => none

def ContractFields.ofValues (entity issuerPubkey name precision ticker version : Json) :
    Option ContractFields := do
  let entity ← Entity.fromValue entity
  let issuerPubkey ← issuerPubkey.asStr >>= fromHex
  let name ← name.asStr
  let precision ← asU8 precision
  let ticker ← ticker.asStr
  let version ← asU8 version
  pure { entity, issuerPubkey, name, precision, ticker, version }

/-- `serde_json::from_value`: from an object, whose other keys are ignored, or from the six values
in order. -/
def ContractFields.fromValue (v : Json) : Option ContractFields :=
  match v with
  | .obj _ => do
      ofValues (← v.get "entity") (← v.get "issuer_pubkey") (← v.get "name") (← v.get "precision")
        (← v.get "ticker") (← v.get "version")
  | .arr [entity, issuerPubkey, name, precision, ticker, version] =>
    ofValues entity issuerPubkey name precision ticker version
  | _ => none

def Entity.toValue : Entity → Json
  | .domain d => .obj [("domain", .str d)]

/-- `serde_json::to_value`, with the keys in lexicographic order. -/
def ContractFields.toValue (f : ContractFields) : Json :=
  .obj [("entity", f.entity.toValue), ("issuer_pubkey", .str (toHex f.issuerPubkey)),
    ("name", .str f.name), ("precision", .int f.precision.toNat), ("ticker", .str f.ticker),
    ("version", .int f.version.toNat)]

theorem asU8_toNat (n : UInt8) : asU8 (.int n.toNat) = some n := by
  have hn := n.toNat_lt
  have hrange : (0 : Int) ≤ n.toNat ∧ (n.toNat : Int) < 256 := by omega
  rw [asU8, if_pos hrange, Int.toNat_natCast, UInt8.ofNat_toNat]

theorem ContractFields.fromValue_toValue (f : ContractFields) : fromValue f.toValue = some f := by
  obtain ⟨⟨d⟩, issuerPubkey, name, precision, ticker, version⟩ := f
  simp [fromValue, toValue, ofValues, Entity.fromValue, Entity.toValue, Json.get, Json.asStr,
    List.lookup_cons, fromHex_toHex, asU8_toNat]

/-! ## Contracts -/

/-- `Contract`: its fields, and the document it was read from. -/
structure Contract extends ContractFields where
  raw : Option Json

/-- The third-party code behind contracts and issuances. -/
structure Hashing where
  issuance : IssuanceHash
  /-- `contract_json_hash`: SHA-256 of the text of a JSON value. -/
  contractJsonHash : Json → BitVec 256
  jsonFromStr : String → Option Json
  jsonToString : Json → String

namespace Contract

/-- `Contract::from_value`: the document is kept. -/
def fromValue (v : Json) : Except Error Contract := do
  let f ← okOr (ContractFields.fromValue v) .serdeJson
  pure { f with raw := some v }

/-- `contract_hash`: over the document, if there is one. -/
def contractHash (h : Hashing) (c : Contract) : BitVec 256 :=
  match c.raw with
  | some raw => h.contractJsonHash raw
  | none => h.contractJsonHash c.toContractFields.toValue

/-- `serde_json::to_string` of a contract writes its fields only. -/
def contractStr (h : Hashing) (c : Contract) : String := h.jsonToString c.toContractFields.toValue

/-- The document of a contract is what the wallet writes for it. -/
def Canonical (c : Contract) : Prop := c.raw = some c.toContractFields.toValue

/-- The contract that is read back from the text of another. -/
def canonical (c : Contract) : Contract :=
  { c with raw := some c.toContractFields.toValue }

theorem canonical_eq_iff {c : Contract} : c.canonical = c ↔ c.Canonical := by
  obtain ⟨f, raw⟩ := c
  simp only [canonical, Canonical, mk.injEq, true_and]
  exact eq_comm

theorem canonical_canonical (c : Contract) : c.canonical.Canonical := rfl

theorem fromValue_toValue (c : Contract) :
    fromValue c.toContractFields.toValue = .ok c.canonical := by
  rw [fromValue, ContractFields.fromValue_toValue]
  rfl

end Contract

/-! ## Registry data -/

/-- `asset_ids`: the ids an input issues, if it commits to the contract. -/
def assetIds (h : Hashing) (txin : TxIn) (contract : Contract) : Except Error (AssetId × AssetId) :=
  if contract.contractHash h ≠ txin.assetIssuance.assetEntropy then
    .error .contractDoesNotCommitToAssetId
  else .ok (txin.issuanceIds h.issuance)

structure RegistryAssetData where
  assetId : AssetId
  tokenId : AssetId
  issuanceVin : Nat
  issuanceTx : Transaction
  contract : Contract

namespace RegistryAssetData

/-- The loop of `RegistryAssetData::new`, from input `vin` on. -/
def find (h : Hashing) (assetId : AssetId) (issuanceTx : Transaction) (contract : Contract) :
    List TxIn → Nat → Except Error RegistryAssetData
  | [], _ => .error (.invalidIssuanceTxtForAsset assetId)
  | txin :: inputs, vin =>
    let ids := txin.issuanceIds h.issuance
    if ids.1 = assetId then do
      let contractIds ← assetIds h txin contract
      if contractIds.1 ≠ assetId ∨ contractIds.2 ≠ ids.2 then
        .error (.invalidContractForAsset assetId)
      else
        .ok { assetId, tokenId := ids.2, issuanceVin := vin, issuanceTx, contract }
    else find h assetId issuanceTx contract inputs (vin + 1)

def new (h : Hashing) (assetId : AssetId) (issuanceTx : Transaction) (contract : Contract) :
    Except Error RegistryAssetData :=
  find h assetId issuanceTx contract issuanceTx.input 0

variable {h : Hashing} {assetId : AssetId} {tx : Transaction} {c c' : Contract}
  {d d' : RegistryAssetData}

theorem find_iff {inputs : List TxIn} {vin : Nat} : find h assetId tx c inputs vin = .ok d ↔
      ∃ txin i, (inputs.zipIdx vin).find? (fun e => (e.1.issuanceIds h.issuance).1 = assetId) =
          some (txin, i) ∧
        c.contractHash h = txin.assetIssuance.assetEntropy ∧
        d = ⟨assetId, (txin.issuanceIds h.issuance).2, i, tx, c⟩ := by
  induction inputs generalizing vin with
  | nil => simp [find]
  | cons txin inputs ih =>
    rw [find, List.zipIdx_cons]
    by_cases hid : (txin.issuanceIds h.issuance).1 = assetId
    · rw [List.find?_cons_of_pos (by simpa using hid), if_pos hid]
      by_cases hhash : c.contractHash h = txin.assetIssuance.assetEntropy
      · rw [assetIds, if_neg (not_not.2 hhash), except_bind_ok_iff]
        constructor
        · rintro ⟨ids, hids, hd⟩
          cases hids
          rw [if_neg (by simp [hid])] at hd
          cases hd
          exact ⟨txin, vin, rfl, hhash, rfl⟩
        · rintro ⟨txin', i, hfirst, -, rfl⟩
          cases hfirst
          exact ⟨_, rfl, if_neg (by simp [hid])⟩
      · rw [assetIds, if_pos hhash]
        constructor
        · intro hd
          cases hd
        · rintro ⟨txin', i, hfirst, hhash', -⟩
          cases hfirst
          exact absurd hhash' hhash
    · rw [List.find?_cons_of_neg (by simpa using hid), if_neg hid]
      exact ih

theorem new_ok (hd : new h assetId tx c = .ok d) :
    d.assetId = assetId ∧ d.issuanceTx = tx ∧ d.contract = c := by
  obtain ⟨txin, i, -, -, rfl⟩ := find_iff.1 hd
  exact ⟨rfl, rfl, rfl⟩

/-- **Another contract fits the same asset only if it has the same hash.** -/
theorem new_iff (hd : new h assetId tx c = .ok d) : new h assetId tx c' = .ok d' ↔
      c'.contractHash h = c.contractHash h ∧ d' = { d with contract := c' } := by
  obtain ⟨txin, i, hfirst, hhash, rfl⟩ := find_iff.1 hd
  rw [new, find_iff]
  constructor
  · rintro ⟨txin', i', hfirst', hhash', rfl⟩
    rw [hfirst] at hfirst'
    cases hfirst'
    exact ⟨hhash'.trans hhash.symm, rfl⟩
  · rintro ⟨hsame, rfl⟩
    exact ⟨txin, i, hfirst, hsame.trans hhash, rfl⟩

end RegistryAssetData

/-! ## What the hash commits to -/

/-- `AssetMetadata`: the text of a contract, and the output that the issuance spends. -/
structure AssetMetadata where
  contract : String
  issuancePrevout : OutPoint

/-- What `set_issuance` and `RegistryAssetData::asset_metadata` store of a contract. -/
def AssetMetadata.ofContract (h : Hashing) (c : Contract) (issuancePrevout : OutPoint) :
    AssetMetadata :=
  ⟨c.contractStr h, issuancePrevout⟩

namespace Contract

def fromParts (entity : Entity) (issuerPubkey : List UInt8) (name : String) (precision : UInt8)
    (ticker : String) (version : UInt8) : Contract :=
  { entity, issuerPubkey, name, precision, ticker, version, raw := none }

/-- `serde_json::from_str`. -/
def parse (h : Hashing) (s : String) : Except Error Contract := do
  let v ← okOr (h.jsonFromStr s) .serdeJson
  fromValue v

/-- `PartialEq`: the fields are compared, the document is not. -/
def eq (c d : Contract) : Bool :=
  c.entity = d.entity && c.issuerPubkey = d.issuerPubkey && c.name = d.name &&
    c.precision = d.precision && c.ticker = d.ticker && c.version = d.version

def document (c : Contract) : Json := c.raw.getD c.toContractFields.toValue

/-- A contract that keeps a document has the fields the document was written from. -/
def InSync (c : Contract) : Prop := ∀ raw, c.raw = some raw → raw = c.toContractFields.toValue

variable {h : Hashing} {c d : Contract}

theorem contractHash_eq (h : Hashing) (c : Contract) :
    c.contractHash h = h.contractJsonHash c.document := by
  obtain ⟨f, raw⟩ := c
  cases raw <;> rfl

theorem inSync_iff_document : c.InSync ↔ c.document = c.toContractFields.toValue := by
  obtain ⟨f, raw⟩ := c
  cases raw with
  | none => simp [InSync, document]
  | some raw => simp [InSync, document]

theorem fromParts_inSync (entity : Entity) (issuerPubkey : List UInt8) (name : String)
    (precision : UInt8) (ticker : String) (version : UInt8) :
    (fromParts entity issuerPubkey name precision ticker version).InSync := by
  intro raw hraw
  cases hraw

theorem canonical_inSync (c : Contract) : c.canonical.InSync := by
  intro raw hraw
  cases hraw
  rfl

theorem eq_iff : c.eq d = true ↔ c.toContractFields = d.toContractFields := by
  obtain ⟨⟨entity, issuerPubkey, name, precision, ticker, version⟩, raw⟩ := c
  obtain ⟨⟨entity', issuerPubkey', name', precision', ticker', version'⟩, raw'⟩ := d
  simp [eq, and_assoc]

theorem document_eq_iff (heq : c.eq d = true) :
    c.document = d.document ↔ (c.InSync ∧ d.InSync) ∨ c.raw = d.raw := by
  rw [inSync_iff_document, inSync_iff_document, ← eq_iff.1 heq]
  obtain ⟨f, raw⟩ := c
  obtain ⟨f', raw'⟩ := d
  obtain rfl : f = f' := eq_iff.1 heq
  cases raw with
  | none =>
    cases raw' with
    | none => simp [document]
    | some raw' =>
      simp only [document, Option.getD_none, Option.getD_some, true_and, reduceCtorEq, or_false]
      exact eq_comm
  | some raw =>
    cases raw' with
    | none => simp [document]
    | some raw' =>
      simp only [document, Option.getD_some, Option.some.injEq]
      constructor
      · exact Or.inr
      · rintro (⟨hraw, hraw'⟩ | hsame)
        · exact hraw.trans hraw'.symm
        · exact hsame

theorem parse_contractStr (hjson : h.jsonFromStr (h.jsonToString c.toContractFields.toValue) =
      some c.toContractFields.toValue) :
    parse h (c.contractStr h) = .ok c.canonical := by
  rw [parse, contractStr, hjson]
  exact fromValue_toValue c

theorem assetIds_commits (h : Hashing) (c : Contract) : ∃ txin ids, assetIds h txin c = .ok ids ∧
      txin.assetIssuance.assetEntropy = c.contractHash h :=
  ⟨⟨⟨0, 0⟩, ⟨.zero, c.contractHash h, .null, .null⟩⟩, _, if_neg (not_not.2 rfl), rfl⟩

theorem assetIds_ok {txin : TxIn} {ids : AssetId × AssetId} (hids : assetIds h txin c = .ok ids) :
    txin.assetIssuance.assetEntropy = c.contractHash h := by
  rw [assetIds] at hids
  split at hids
  · cases hids
  · next hhash => exact (not_not.1 hhash).symm

/-- **A contract is bound to its commitment exactly when its document says what its fields say.**
Only then does the text of the contract have the hash of the contract, and only then does an
issuance that passes `asset_ids` commit to the fields. Two contracts that compare equal have the
same hash if both are in sync, or if both were read from the same document. -/
theorem commitment_holds_iff (prevout : OutPoint)
    (hjson : h.jsonFromStr (h.jsonToString c.toContractFields.toValue) =
      some c.toContractFields.toValue)
    (hsha : Set.InjOn h.contractJsonHash {c.document, c.toContractFields.toValue, d.document}) :
    ((∃ c', parse h (AssetMetadata.ofContract h c prevout).contract = .ok c' ∧
        c'.contractHash h = c.contractHash h) ↔ c.InSync) ∧
      (c.eq d = true → (c.contractHash h = d.contractHash h ↔
        (c.InSync ∧ d.InSync) ∨ c.raw = d.raw)) ∧
      ((∀ txin ids, assetIds h txin c = .ok ids →
        txin.assetIssuance.assetEntropy = h.contractJsonHash c.toContractFields.toValue) ↔
          c.InSync) := by
  have hsync : h.contractJsonHash c.toContractFields.toValue = c.contractHash h ↔ c.InSync := by
    rw [inSync_iff_document, contractHash_eq, hsha.eq_iff (by simp) (by simp)]
    exact eq_comm
  refine ⟨?_, fun heq => ?_, ?_⟩
  · rw [AssetMetadata.ofContract, parse_contractStr hjson, ← hsync]
    constructor
    · rintro ⟨c', hc', hhash⟩
      cases hc'
      exact hhash
    · intro hhash
      exact ⟨c.canonical, rfl, hhash⟩
  · rw [contractHash_eq, contractHash_eq, hsha.eq_iff (by simp) (by simp)]
    exact document_eq_iff heq
  · rw [← hsync]
    constructor
    · intro hall
      obtain ⟨txin, ids, hids, hentropy⟩ := assetIds_commits h c
      rw [← hall txin ids hids, hentropy]
    · intro hhash txin ids hids
      rw [assetIds_ok hids, hhash]

namespace SampleContract

def fields (version : UInt8) : ContractFields where
  entity := .domain "example.com"
  issuerPubkey := [2]
  name := "Gold"
  precision := 2
  ticker := "GLD"
  version := version

def openampDocument : Json :=
  .obj [("entity", .obj [("domain", .str "example.com")]), ("issuer_pubkey", .str "02"),
    ("name", .str "Gold"), ("openamp", .obj []), ("precision", .int 2), ("ticker", .str "GLD"),
    ("version", .int 0)]

def parsed : Contract := { fields 0 with raw := some (fields 0).toValue }

def openamp : Contract := { fields 0 with raw := some openampDocument }

def changed : Contract := { parsed with version := 1 }

def summary (v : Json) : Nat × Int :=
  match v with
  | .obj l =>
    (l.length, match l.lookup "version" with
      | some (.int n) => n
      | _ => 0)
  | _ => (0, 0)

def hashing : Hashing where
  issuance := ⟨fun _ hash => hash, fun entropy => entropy, fun entropy _ => entropy + 100⟩
  contractJsonHash v := .ofInt 256 (256 * (summary v).1 + (summary v).2)
  jsonFromStr s := some (fields (if s = "1" then 1 else 0)).toValue
  jsonToString v := if (summary v).2 = 1 then "1" else "0"

def txin : TxIn := ⟨⟨0, 0⟩, ⟨.zero, parsed.contractHash hashing, .explicit 1, .explicit 1⟩⟩

theorem injOn_documents : Set.InjOn hashing.contractJsonHash
    {(fields 0).toValue, (fields 1).toValue, openampDocument} := by
  intro x hx y hy hxy
  simp only [Set.mem_insert_iff, Set.mem_singleton_iff] at hx hy
  rcases hx with rfl | rfl | rfl <;> rcases hy with rfl | rfl | rfl
  all_goals first
    | rfl
    | exact absurd hxy (by decide)

/-- A parsed contract and one built from the same parts are bound to one commitment. -/
theorem commitment_holds_parsed :
    (∃ c', parse hashing (AssetMetadata.ofContract hashing parsed ⟨0, 0⟩).contract = .ok c' ∧
        c'.contractHash hashing = parsed.contractHash hashing) ∧
      parsed.contractHash hashing =
        (fromParts (.domain "example.com") [2] "Gold" 2 "GLD" 0).contractHash hashing ∧
      ∀ txin ids, assetIds hashing txin parsed = .ok ids → txin.assetIssuance.assetEntropy =
          hashing.contractJsonHash parsed.toContractFields.toValue := by
  have hsha : Set.InjOn hashing.contractJsonHash
      {parsed.document, parsed.toContractFields.toValue,
        (fromParts (.domain "example.com") [2] "Gold" 2 "GLD" 0).document} := by
    refine injOn_documents.mono ?_
    intro v hv
    simp only [Set.mem_insert_iff, Set.mem_singleton_iff] at hv
    left
    rcases hv with rfl | rfl | rfl <;> rfl
  have hsync : parsed.InSync := canonical_inSync parsed
  have h := commitment_holds_iff ⟨0, 0⟩ rfl hsha
  exact ⟨h.1.2 hsync, (h.2.1 rfl).2 (.inl ⟨hsync, fromParts_inSync _ _ _ _ _ _⟩), h.2.2.2 hsync⟩

/-- **A changed contract and one with a further block come apart from their hash.** The issuance of
the parsed contract passes the check against the changed one, whose text has another hash. The
contract with the block is equal to the parsed one, and their hashes differ. -/
theorem commitment_of_changed_contract :
    Set.InjOn hashing.contractJsonHash {(fields 0).toValue, (fields 1).toValue, openampDocument} ∧
      fromValue (fields 0).toValue = .ok parsed ∧ changed = { parsed with version := 1 } ∧
      (∃ ids, assetIds hashing txin changed = .ok ids ∧ txin.assetIssuance.assetEntropy ≠
          hashing.contractJsonHash changed.toContractFields.toValue) ∧
      (∃ c', parse hashing (changed.contractStr hashing) = .ok c' ∧
        c'.contractHash hashing ≠ changed.contractHash hashing) ∧
      fromValue openampDocument = .ok openamp ∧
      (∃ c', parse hashing (openamp.contractStr hashing) = .ok c' ∧
        c'.contractHash hashing ≠ openamp.contractHash hashing) ∧
      openamp.eq parsed = true ∧
      openamp.contractHash hashing ≠ parsed.contractHash hashing := by
  refine ⟨injOn_documents, fromValue_toValue parsed, rfl, ⟨_, rfl, by decide⟩,
    ⟨changed.canonical, parse_contractStr rfl, by decide⟩, rfl,
    ⟨openamp.canonical, parse_contractStr rfl, by decide⟩, by decide, by decide⟩

end SampleContract

end Contract

end Registry

end Swk
