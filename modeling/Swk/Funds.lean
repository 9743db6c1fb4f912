import Mathlib.Data.List.ReduceOption
import Swk.Persister

/-!
# Funds and applied transactions

What the wallet reads off its cache: its unspent outputs (`utxos_inner`), its outputs
(`txos_inner`) and its balance. And `apply_transaction`, which turns a transaction that no scan
has returned yet into an update and applies it. Explicit outputs are wallet funds here: this is
the Sequentia build.
-/

namespace Swk

structure WalletTxOut where
  outpoint : OutPoint
  scriptPubkey : Script
  height : Option Height
  unblinded : TxOutSecrets
  wildcardIndex : UInt32
  extInt : Chain
  isSpent : Bool
  address : Address
deriving DecidableEq

def isExplicit (s : TxOutSecrets) : Bool := s.assetBf = .zero && s.valueBf = .zero

namespace Cache

/-- `Wollet::index`: the path of a script of the wallet. -/
def index (c : Cache) (scriptPubkey : Script) : Except Error (Chain × UInt32) :=
  match c.paths.lookup scriptPubkey with
  | none => .error .scriptNotMine
  | some (extInt, .normal index) => .ok (extInt, index)
  | some (_, .hardened _) => .error (.generic "unexpected hardened derivation")

theorem mem_paths_of_index {c : Cache} {script : Script} {path : Chain × UInt32}
    (h : c.index script = .ok path) : script ∈ c.paths := by
  unfold index at h
  split at h
  · cases h
  · next chain index hlookup => exact HashMap.mem_iff.2 ⟨_, hlookup⟩
  · cases h

/-- The blinding key of the address of an output; explicit outputs have none. -/
def blindingPubkeyOf (c : Cache) (unblinded : TxOutSecrets) (chain : Chain) (index : UInt32) :
    Option PublicKey :=
  if isExplicit unblinded then none
  else (c.scripts.lookup (chain, ChildNumber.ofU32 index)).bind (·.2)

def utxoAt (c : Cache) (e : OutPoint × Script) : Except Error WalletTxOut := do
  let unblinded ← match c.unblinded.lookup e.1 with
    | some unblinded => pure unblinded
    | none => throw (.generic "missing unblinded")
  let path ← match c.index e.2 with
    | .ok path => pure path
    | .error _ => throw (.generic "missing index")
  match Address.fromScript e.2 (c.blindingPubkeyOf unblinded path.1 path.2) with
  | some address =>
    pure
      { outpoint := e.1
        scriptPubkey := e.2
        height := (c.heights.lookup e.1.txid).getD none
        unblinded := unblinded
        wildcardIndex := path.2
        extInt := path.1
        isSpent := false
        address := address }
  | none => throw (.generic "invalid scriptpubkey")

theorem utxoAt_ok {c : Cache} {e : OutPoint × Script} {u : WalletTxOut} (h : c.utxoAt e = .ok u) :
    u.outpoint = e.1 ∧ u.scriptPubkey = e.2 ∧ c.unblinded.lookup e.1 = some u.unblinded ∧
      c.index e.2 = .ok (u.extInt, u.wildcardIndex) ∧
      Address.fromScript e.2 (c.blindingPubkeyOf u.unblinded u.extInt u.wildcardIndex) =
        some u.address := by
  unfold utxoAt at h
  cases hunblinded : c.unblinded.lookup e.1 with
  | none =>
    rw [hunblinded] at h
    cases h
  | some unblinded =>
    rw [hunblinded] at h
    cases hindex : c.index e.2 with
    | error err =>
      rw [hindex] at h
      cases h
    | ok path =>
      rw [hindex] at h
      simp only [pure_bind] at h
      cases haddress : Address.fromScript e.2 (c.blindingPubkeyOf unblinded path.1 path.2) with
      | none =>
        rw [haddress] at h
        cases h
      | some address =>
        rw [haddress] at h
        cases h
        exact ⟨rfl, rfl, rfl, rfl, haddress⟩

def utxosInner (c : Cache) : Except Error (List WalletTxOut) := c.unspent.toPairs.mapM c.utxoAt

/-- `Wollet::utxos`: by value, largest first. -/
def utxos (c : Cache) : Except Error (List WalletTxOut) := do
  let utxos ← c.utxosInner
  pure (utxos.insertionSort fun a b => b.unblinded.value ≤ a.unblinded.value)

/-- `Wollet::balance`: the unspent amount of each asset, the policy asset always among them. -/
def balance (env : Env) (c : Cache) : Except Error (HashMap AssetId UInt64) := do
  let utxos ← c.utxos
  pure (utxos.foldl (fun r u =>
      r.insert u.unblinded.asset ((r.lookup u.unblinded.asset).getD 0 + u.unblinded.value))
    ((∅ : HashMap AssetId UInt64).insert env.policyAsset 0))

end Cache

/-- The difference of two balances, without the assets that did not move. -/
def balanceSub (a b : HashMap AssetId UInt64) : HashMap AssetId Int64 :=
  (HashMap.ofPairs ((b.keys ++ a.keys).map fun k =>
    (k, ((a.lookup k).getD 0).toInt64 - ((b.lookup k).getD 0).toInt64))).retain fun _ v => v ≠ 0

/-! ## Booking amounts -/

theorem toInt64_eq (v : UInt64) : v.toInt64 = Int64.ofInt v.toNat := by
  rw [Int64.ofInt_eq_ofNat, ← UInt64.toInt64_ofNat', UInt64.ofNat_toNat]

theorem sum_reduceOption {α : Type} (f : α → Int) (l : List (Option α)) :
    (l.reduceOption.map f).sum = (l.map fun u => (u.map f).getD 0).sum := by
  induction l with
  | nil => rfl
  | cons u l ih =>
    cases u with
    | none => simp [ih]
    | some u => simp [ih]

section Booking

variable {α : Type} (asset : α → AssetId) (amount : α → UInt64) (l : List α)
  (m : HashMap AssetId Int64) (a : AssetId)

theorem getD_lookup_credit :
    ((l.foldl (fun m u => m.entry (asset u) 0 (· + (amount u).toInt64)) m).lookup a).getD 0 =
      (m.lookup a).getD 0 +
        Int64.ofInt (l.map fun u => if asset u = a then ((amount u).toNat : Int) else 0).sum := by
  have hzero (x : Int64) : x + Int64.ofInt 0 = x := Int64.add_zero x
  have hadd (u : α) (x : Int64) : x + (amount u).toInt64 = x + Int64.ofInt (amount u).toNat := by
    rw [toInt64_eq]
  exact HashMap.getD_lookup_tally Int64.add_assoc hzero Int64.ofInt_add hadd l m a

theorem getD_lookup_debit :
    ((l.foldl (fun m u => m.entry (asset u) 0 (· - (amount u).toInt64)) m).lookup a).getD 0 =
      (m.lookup a).getD 0 -
        Int64.ofInt (l.map fun u => if asset u = a then ((amount u).toNat : Int) else 0).sum := by
  have hzero (x : Int64) : x + Int64.ofInt (-0) = x := Int64.add_zero x
  have hneg (n k : Int) : Int64.ofInt (-(n + k)) = Int64.ofInt (-n) + Int64.ofInt (-k) := by
    rw [neg_add, Int64.ofInt_add]
  have hsub (u : α) (x : Int64) : x - (amount u).toInt64 = x + Int64.ofInt (-(amount u).toNat) := by
    rw [toInt64_eq, Int64.sub_eq_add_neg, Int64.ofInt_neg]
  rw [HashMap.getD_lookup_tally (φ := fun n : Int => Int64.ofInt (-n)) Int64.add_assoc hzero hneg
    hsub l m a, Int64.ofInt_neg, ← Int64.sub_eq_add_neg]

end Booking

/-! ## Applying a transaction -/

/-- The outputs of a transaction that pay a known script and that the wallet can unblind. -/
def unblindOutputs (env : Env) (mine : Script → Bool) (tx : Transaction) :
    List (OutPoint × TxOutSecrets) :=
  tx.output.zipIdx.filterMap fun e =>
    if mine e.1.scriptPubkey then
      match tryUnblind env.secp env.descriptor e.1 with
      | .ok unblinded => some (⟨env.txid tx, e.2⟩, unblinded)
      | .error _ => none
    else none

/-- The unspent outpoints after a transaction, for a utxo-only wallet: its inputs go, its
unblinded outputs come. -/
def unspentAfter (env : Env) (c : Cache) (tx : Transaction)
    (unblinds : List (OutPoint × TxOutSecrets)) : List OutPoint :=
  let unspent := tx.spends.foldl (fun (m : HashMap OutPoint Script) o => m.erase o) c.unspent
  let added := tx.output.zipIdx.filterMap fun e =>
    let outpoint : OutPoint := ⟨env.txid tx, e.2⟩
    if unblinds.any fun p => p.1 = outpoint then some (outpoint, e.1.scriptPubkey) else none
  (unspent.extend added).keys

/-- The update `apply_transaction_inner` makes of a transaction. -/
def transactionUpdate (env : Env) (w : Wollet) (tx : Transaction) : Update :=
  let unblinds := unblindOutputs env (fun s => s ∈ w.cache.paths) tx
  { version := 4
    wolletStatus := w.status env
    newTxs := { txs := [(env.txid tx, tx)], unblinds := unblinds }
    txidHeightNew := [(env.txid tx, none)]
    txidHeightDelete := []
    timestamps := []
    scriptsWithBlindingPubkey := []
    tip := defaultBlockheader
    unspent := if env.utxoOnly then unspentAfter env w.cache tx unblinds else []
    lastUnused := w.lastUnused }

/-- `Wollet::apply_transaction`: the change of the balance. -/
def applyTransaction (env : Env) (tx : Transaction) : WolletM (HashMap AssetId Int64) := do
  let w ← get
  let initialBalance ← liftExcept (w.cache.balance env)
  applyUpdate env (transactionUpdate env w tx)
  let w' ← get
  let finalBalance ← liftExcept (w'.cache.balance env)
  pure (balanceSub finalBalance initialBalance)

variable {env : Env} {tx : Transaction} {w w' : Wollet}

theorem applyTransaction_ok {r : HashMap AssetId Int64} (h : applyTransaction env tx w = .ok r w') :
    applyUpdate env (transactionUpdate env w tx) w = .ok () w' := by
  obtain ⟨_, -, h⟩ := liftExcept_bind_ok_iff.1 (get_bind_ok_iff.1 h)
  obtain ⟨_, w₁, hup, h⟩ := bind_ok_iff.1 h
  obtain ⟨_, -, h⟩ := liftExcept_bind_ok_iff.1 (get_bind_ok_iff.1 h)
  obtain ⟨-, rfl⟩ := pure_ok_iff.1 h
  exact hup

/-- A successful `apply_update` or `apply_transaction`, and the update it applies. -/
inductive Change (env : Env) (w : Wollet) (u : Update) (w' : Wollet) : Prop
  | update (hok : applyUpdate env u w = .ok () w')
  | transaction (tx : Transaction) (delta : HashMap AssetId Int64)
      (hu : u = transactionUpdate env w tx) (hok : applyTransaction env tx w = .ok delta w')

theorem Change.applyUpdate {u : Update} (h : Change env w u w') :
    applyUpdate env u w = .ok () w' := by
  cases h with
  | update hok => exact hok
  | transaction tx delta hu hok =>
    subst hu
    exact applyTransaction_ok hok

theorem mem_unblindOutputs {mine : Script → Bool} {o : OutPoint} {s : TxOutSecrets} :
    (o, s) ∈ unblindOutputs env mine tx ↔
      o.txid = env.txid tx ∧ ∃ out, tx.output[o.vout]? = some out ∧
        mine out.scriptPubkey = true ∧ tryUnblind env.secp env.descriptor out = .ok s := by
  simp only [unblindOutputs, List.mem_filterMap, List.mem_zipIdx_iff_getElem?]
  constructor
  · rintro ⟨⟨out, i⟩, hget, h⟩
    dsimp only at hget h
    split_ifs at h with hmine
    split at h
    · rename_i s' hs'
      cases h
      exact ⟨rfl, out, hget, hmine, hs'⟩
    · exact absurd h (by simp)
  · rintro ⟨htxid, out, hget, hmine, hs⟩
    obtain ⟨txid, vout⟩ := o
    refine ⟨(out, vout), hget, ?_⟩
    subst htxid
    simp only [hmine, if_true, hs]

end Swk
