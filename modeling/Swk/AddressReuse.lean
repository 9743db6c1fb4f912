import Swk.Funds

/-!
# Addresses that were used

The wallet hands out addresses from an index on, its last unused one. Applied updates only move it
up: it is the largest they carry or, before version 4, the one after the largest that their
transactions pay to, deleted ones included.

A transaction that is applied locally makes an update of version 4 that carries the index the wallet
has. So the index stays where it is, whatever the transaction pays to: it is beyond the
transaction's own addresses afterwards if and only if it was before
(`applyTransaction_noReuse_iff`).
-/

namespace Swk

/-- The last unused index of each chain is beyond the scripts of the wallet that a transaction pays
to. -/
def NoReuse (c : Cache) (tx : Transaction) : Prop :=
  ∀ output ∈ tx.output, ∀ chain index,
    c.paths.lookup output.scriptPubkey = some (chain, .normal index) → index < c.lastUnusedOf chain

/-- A wallet, some successful calls later. The updates need not be those of a scan. -/
inductive Later (env : Env) (w : Wollet) : Wollet → Prop
  | refl : Later env w w
  | update {w₁ w₂ : Wollet} {u : Update} (h : Later env w w₁)
      (hok : applyUpdate env u w₁ = .ok () w₂) : Later env w w₂
  | transaction {w₁ w₂ : Wollet} {tx : Transaction} {delta : HashMap AssetId Int64}
      (h : Later env w w₁) (hok : applyTransaction env tx w₁ = .ok delta w₂) : Later env w w₂

section LastUnused

variable {env : Env} {w w' : Wollet} {u : Update} {tx : Transaction}

theorem le_max_left_u32 (a b : UInt32) : a ≤ max a b := by
  simp only [Max.max]
  grind

theorem max_self_u32 (a : UInt32) : max a a = a := by
  simp only [Max.max]
  grind

theorem le_fetchMaxAfter (current : UInt32) (last : Option UInt32) :
    current ≤ Cache.fetchMaxAfter current last := by
  cases last with
  | none => exact UInt32.le_refl current
  | some index => exact le_max_left_u32 current (index + 1)

theorem lastUnusedOf_applied (c : Cache) (scripts : List ScriptEntry) (store : TxsStore)
    (chain : Chain) :
    c.lastUnusedOf chain ≤ (c.applied env u scripts store).lastUnusedOf chain := by
  rw [applied_lastUnusedOf]
  split
  · exact le_max_left_u32 _ _
  · exact le_fetchMaxAfter _ _

theorem applyUpdate_lastUnused (hok : applyUpdate env u w = .ok () w') (chain : Chain) :
    w.cache.lastUnusedOf chain ≤ w'.cache.lastUnusedOf chain := by
  obtain ⟨scripts, -, hcache, -⟩ := applyUpdate_ok hok
  rw [hcache]
  exact lastUnusedOf_applied _ _ _ chain

theorem Later.lastUnused (h : Later env w w') (chain : Chain) :
    w.cache.lastUnusedOf chain ≤ w'.cache.lastUnusedOf chain := by
  induction h with
  | refl => exact UInt32.le_refl _
  | update _ hok ih => exact UInt32.le_trans ih (applyUpdate_lastUnused hok chain)
  | transaction _ hok ih =>
    exact UInt32.le_trans ih (applyUpdate_lastUnused (applyTransaction_ok hok) chain)

theorem applyTransaction_lastUnused {delta : HashMap AssetId Int64}
    (hok : applyTransaction env tx w = .ok delta w') (chain : Chain) :
    w'.cache.lastUnusedOf chain = w.cache.lastUnusedOf chain ∧ w'.cache.paths = w.cache.paths := by
  obtain ⟨scripts, ha, hcache, -⟩ := applyUpdate_ok (applyTransaction_ok hok)
  have hversion : 4 ≤ (transactionUpdate env w tx).version := by
    show (4 : UInt8) ≤ 4
    decide
  have hscripts : scripts = [] := (Except.ok.inj ha.scripts).symm
  rw [hcache]
  constructor
  · rw [applied_lastUnusedOf, if_pos hversion]
    cases chain <;> exact max_self_u32 _
  · rw [applied_paths, hscripts]
    rfl

end LastUnused

/-- **No address is reused after a transaction is applied** if and only if the wallet's indexes were
beyond the addresses it pays to before. From then on they never go back, whatever is applied, also
an update that deletes the transaction. -/
theorem applyTransaction_noReuse_iff (env : Env) (w w' : Wollet) (tx : Transaction)
    (delta : HashMap AssetId Int64) (h : applyTransaction env tx w = .ok delta w') :
    (NoReuse w'.cache tx ↔ NoReuse w.cache tx) ∧
      (∀ chain, w.cache.lastUnusedOf chain ≤ w'.cache.lastUnusedOf chain) ∧
      ∀ w'', Later env w' w'' → ∀ chain,
        w'.cache.lastUnusedOf chain ≤ w''.cache.lastUnusedOf chain := by
  have hsame := applyTransaction_lastUnused h
  refine ⟨?_, ?_, ?_⟩
  · simp only [NoReuse, (hsame _).1, (hsame .external).2]
  · intro chain
    rw [(hsame chain).1]
    exact UInt32.le_refl _
  · intro w'' hlater chain
    exact hlater.lastUnused chain

namespace FreshAddress

def script (index : UInt32) : Script := [0x51, 0x02, 0x00, index.toUInt8]

def env : Env :=
  { Concrete.env (fun _ => 7) [] with
    descriptor :=
      ⟨.desc (Concrete.descriptor (Concrete.scripts .external true script) none none), false⟩ }

def found (lastUnused : UInt32) : Update where
  version := 4
  wolletStatus := 0
  newTxs := ⟨[], []⟩
  txidHeightNew := []
  txidHeightDelete := []
  timestamps := []
  scriptsWithBlindingPubkey := [(.external, .normal 3, script 3, some ⟨false, 1⟩)]
  tip := defaultBlockheader
  unspent := []
  lastUnused := ⟨0, lastUnused⟩

def payment : Transaction := ⟨[], [⟨.explicit 1, .explicit 1000, .null, script 3, none⟩]⟩

def before (lastUnused : UInt32) : Wollet :=
  match applyUpdate env (found lastUnused) (.fresh .empty) with
  | .ok _ w => w
  | .error _ w => w

def after (lastUnused : UInt32) : Wollet :=
  match applyTransaction env payment (before lastUnused) with
  | .ok _ w => w
  | .error _ w => w

/-- The next address is the one that was just paid to. -/
theorem applyTransaction_reuses : env.descriptor.hasWildcard = true ∧
    (∃ delta, applyTransaction env payment (before 3) = .ok delta (after 3)) ∧
    ¬ NoReuse (after 3).cache payment := by
  refine ⟨rfl, ⟨_, rfl⟩, ?_⟩
  intro h
  have hbeyond := h _ List.mem_cons_self .external 3 (by decide)
  exact absurd hbeyond (by decide)

theorem noReuse_before : NoReuse (before 4).cache payment := by
  intro output houtput chain index hlookup
  rw [List.mem_singleton.1 houtput] at hlookup
  have hpath : (before 4).cache.paths.lookup (script 3) = some (.external, .normal 3) := by decide
  cases hpath.symm.trans hlookup
  decide

/-- A payment to an address that was used before changes nothing. -/
theorem noReuse_after : NoReuse (after 4).cache payment := by
  have hok : ∃ delta, applyTransaction env payment (before 4) = .ok delta (after 4) := ⟨_, rfl⟩
  obtain ⟨delta, hok⟩ := hok
  exact (applyTransaction_noReuse_iff env (before 4) (after 4) payment delta hok).1.2 noReuse_before

end FreshAddress

end Swk
