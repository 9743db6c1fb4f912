import Swk.Descriptor

/-!
# Transactions as they are signed

The swap builders assemble a transaction field by field, sign it and serialise it, on Sequentia and
on Bitcoin. Both chains have the same inputs; the outputs differ, so they are a parameter. Parsing
identifiers, hashing and signing are third-party code, one field each of `Signing`.
-/

namespace Swk

structure RawTxIn where
  previousOutput : OutPoint
  scriptSig : Script
  sequence : UInt32
  scriptWitness : List (List UInt8)
deriving DecidableEq

structure RawTransaction (Out : Type) where
  version : UInt32
  lockTime : UInt32
  input : List RawTxIn
  output : List Out
deriving DecidableEq

def sighashAllByte : UInt8 := 0x01

/-- The third-party code a builder calls. An error is the text it displays. -/
structure Signing (Out : Type) where
  txidFromStr : String → Except String Txid
  assetIdFromStr : String → Except String AssetId
  assetText : AssetId → String
  publicKey : SecretKey → List UInt8
  publicKeyFromSlice : List UInt8 → Except String Unit
  hash160 : List UInt8 → List UInt8
  /-- `segwitv0_sighash` of an input, with its script code and value, for `SIGHASH_ALL`. -/
  segwitv0Sighash : RawTransaction Out → Nat → Script → UInt64 → BitVec 256
  /-- `legacy_sighash` of an input, with its script code, for `SIGHASH_ALL`. -/
  legacySighash : RawTransaction Out → Nat → Script → BitVec 256
  signEcdsa : BitVec 256 → SecretKey → List UInt8

/-! ## Amounts and texts -/

def checkedAdd (a b : UInt64) : Option UInt64 :=
  if a.toNat + b.toNat < 2 ^ 64 then some (a + b) else none

def checkedSub (a b : UInt64) : Option UInt64 := if b ≤ a then some (a - b) else none

theorem checkedAdd_eq_some {a b c : UInt64} (h : checkedAdd a b = some c) :
    c.toNat = a.toNat + b.toNat := by
  obtain ⟨hfits, hc⟩ := Option.ite_none_right_eq_some.1 h
  cases hc
  rw [UInt64.toNat_add, Nat.mod_eq_of_lt hfits]

theorem checkedSub_eq_some {a b c : UInt64} (h : checkedSub a b = some c) :
    c.toNat + b.toNat = a.toNat := by
  obtain ⟨hle, hc⟩ := Option.ite_none_right_eq_some.1 h
  cases hc
  rw [UInt64.toNat_sub_of_le a b hle]
  exact Nat.sub_add_cancel (UInt64.le_iff_toNat_le.1 hle)

def toHex (bytes : List UInt8) : String :=
  .ofList (bytes.flatMap fun b => [(b.toNat / 16).digitChar, (b.toNat % 16).digitChar])

/-! ## A concrete choice -/

namespace Concrete

def signing (Out : Type) : Signing Out where
  txidFromStr := fun _ => .ok 7
  assetIdFromStr := fun _ => .ok 1
  assetText := fun _ => "asset"
  publicKey := fun _ => List.replicate 33 2
  publicKeyFromSlice := fun _ => .ok ()
  hash160 := fun _ => List.replicate 20 0
  segwitv0Sighash := fun _ _ _ _ => 0
  legacySighash := fun _ _ _ => 0
  signEcdsa := fun _ _ => [0x30, 0x00]

def built {ε Out : Type} : Except ε (RawTransaction Out) → RawTransaction Out
  | .ok tx => tx
  | .error _ => ⟨0, 0, [], []⟩

theorem built_ok {ε Out : Type} {r : Except ε (RawTransaction Out)} (h : (built r).version = 2) :
    r = .ok (built r) := by
  cases r with
  | ok tx => rfl
  | error e => exact absurd (show (0 : UInt32) = 2 from h) (by decide)

end Concrete

end Swk
