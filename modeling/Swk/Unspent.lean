import Swk.Ledger
import Swk.Scan
import Swk.Stored
import Swk.Transactions

/-!
# The unspent outputs of a wallet

The map of unspent outputs is edited as updates come in; what it should hold is a global law: the
unblinded outputs of the wallet's transactions that no wallet transaction spends
(`UnspentExact`). This file decides when the edits keep the law.

They do not always. A scan that finds a parent confirmed re-lists the parent, and its outputs go
back in, also one that an unconfirmed child spends when the child itself is not re-listed. The
edits are the abstract `Ledger.refresh`, so by `Ledger.refresh_eq_iff` this is the only kind of
failure: over every history of scans and applied transactions, the law holds throughout exactly
when no step puts a stale outpoint back (`unspentExact_iff`).
-/

namespace Swk

open Cache List HashMap

/-! ## The law -/

/-- Transaction `t` is in the store and spends `o`. -/
def SpentBy (store : TxsStore) (t : Txid) (o : OutPoint) : Prop :=
  ∃ tx, store.lookup t = some tx ∧ o ∈ tx.spends

/-- The script of an output of a stored transaction. -/
def scriptOf (store : TxsStore) (o : OutPoint) : Option Script :=
  (store.lookup o.txid).bind fun tx => tx.scriptAt o.vout

/-- **The law of the unspent map**: its keys are the unblinded outputs of wallet transactions that
pay a wallet script and that no wallet transaction spends, each with its script. -/
def UnspentExact (w : Wollet) : Prop :=
  ∀ o s, w.cache.unspent.lookup o = some s ↔ o ∈ w.cache.unblinded ∧ o.txid ∈ w.cache.heights ∧
      scriptOf w.disk.txs o = some s ∧ s ∈ w.cache.paths ∧
      ∀ t ∈ w.cache.heights, ¬ SpentBy w.disk.txs t o

theorem unspentExact_fresh (disk : Disk) : UnspentExact (Wollet.fresh disk) := by
  intro o s
  refine ⟨fun h => ?_, fun h => ?_⟩
  · exact absurd h (by simp [Wollet.fresh, Cache.default])
  · exact absurd h.1 (by simp [Wollet.fresh, Cache.default])

theorem UnspentExact.mem_iff {w : Wollet} {u : WalletTxOut} (hexact : UnspentExact w)
    (hown : w.ownOutput u.outpoint = some u) (hlisted : u.outpoint.txid ∈ w.cache.heights) :
    u.outpoint ∈ w.cache.unspent ↔ ∀ t ∈ w.cache.heights, ¬ SpentBy w.disk.txs t u.outpoint := by
  obtain ⟨tx, out, htx, hout, htxo⟩ := Wollet.ownOutput_eq_some.1 hown
  obtain ⟨-, -, -, hunblinded, hindex, -⟩ := Cache.txoAt_some htxo
  rw [HashMap.mem_iff]
  constructor
  · rintro ⟨s, hs⟩
    exact ((hexact _ s).1 hs).2.2.2.2
  · intro hspent
    refine ⟨out.scriptPubkey, (hexact _ _).2 ⟨?_, hlisted, ?_, mem_paths_of_index hindex, hspent⟩⟩
    · exact HashMap.mem_iff.2 ⟨u.unblinded, hunblinded⟩
    · rw [scriptOf, htx, Option.bind_some, Transaction.scriptAt, hout]
      rfl

section Extend

variable {env : Env} {U : Set Transaction} {store : TxsStore} {txs : List (Txid × Transaction)}
variable (hb : env.Binds U) (hs : Keyed env U store) (ht : KeyedList env U txs)

include hb hs ht

theorem outpointScript_eq (o : OutPoint) :
    outpointScript (store.extend txs) txs o = scriptOf (store.extend txs) o :=
  scriptAt_of_stripped (stripped_txAsFallback hb hs ht o.txid) o.vout

theorem mem_inputsOf_eq {ids : List Txid} {o : OutPoint} :
    o ∈ inputsOf (store.extend txs) txs ids ↔ ∃ t ∈ ids, SpentBy (store.extend txs) t o := by
  rw [mem_inputsOf]
  refine exists_congr fun t => and_congr_right fun _ => ?_
  exact spends_of_stripped (stripped_txAsFallback hb hs ht t) o

theorem spentBy_stored {t : Txid} (hmem : t ∈ store) (o : OutPoint) :
    SpentBy store t o ↔ SpentBy (store.extend txs) t o :=
  spends_of_stripped (stripped_stored hb hs ht hmem) o

theorem scriptOf_stored {o : OutPoint} (hmem : o.txid ∈ store) :
    scriptOf store o = scriptOf (store.extend txs) o :=
  scriptAt_of_stripped (stripped_stored hb hs ht hmem) o.vout

end Extend

/-! ## Histories of a wallet -/

/-- What holds of a wallet after any history, whatever its unspent map looks like. -/
structure Sound (env : Env) (U : Set Transaction) (w : Wollet) : Prop where
  keyed : Keyed env U w.disk.txs
  txids : ∀ t ∈ w.cache.txids, t ∈ w.disk.txs
  heights : ∀ t ∈ w.cache.heights, t ∈ w.cache.txids
  unblinded : ∀ o ∈ w.cache.unblinded,
    o.txid ∈ w.cache.txids ∧ ∃ s, scriptOf w.disk.txs o = some s ∧ s ∈ w.cache.paths

/-- The updates of scans and of applied transactions have this in common. -/
structure Fits (env : Env) (U : Set Transaction) (c : Cache) (u : Update) : Prop where
  keyed : KeyedList env U u.newTxs.txs
  listed : ∀ t ∈ u.txidHeightNew.map (·.1), t ∈ c.txids ∨ t ∈ u.newTxs.txs.map Prod.fst
  brought : ∀ t ∈ u.newTxs.txs.map Prod.fst, t ∈ u.txidHeightNew.map (·.1)
  disjoint : ∀ t ∈ u.txidHeightNew.map (·.1), t ∉ u.txidHeightDelete
  unblinds : ∀ e ∈ u.newTxs.unblinds, ∃ tx, (e.1.txid, tx) ∈ u.newTxs.txs ∧
    ∃ s, tx.scriptAt e.1.vout = some s ∧
      (s ∈ c.paths ∨ s ∈ u.scriptsWithBlindingPubkey.map fun e => e.2.2.1)

theorem ScanUpdate.fits {env : Env} {U : Set Transaction} {w : Wollet} {u : Update}
    {history : HashMap Txid (Option Height)} (hw : Sound env U w)
    (h : ScanUpdate env w.cache history u) (hU : ∀ e ∈ u.newTxs.txs, e.2 ∈ U) :
    Fits env U w.cache u := by
  have hlisted (t : Txid) : t ∈ u.txidHeightNew.map (·.1) → t ∈ history := by
    intro ht
    obtain ⟨⟨t', height⟩, he, rfl⟩ := mem_map.1 ht
    exact mem_iff.2 ⟨height, ((h.new _ _).1 he).1⟩
  refine ⟨fun e he => ⟨h.txids e he, hU e he⟩, ?_, ?_, ?_, ?_⟩
  · intro t ht
    by_cases hc : t ∈ w.cache.txids
    · exact .inl hc
    · exact .inr ((h.txs t).2 ⟨hlisted t ht, hc⟩)
  · -- a downloaded transaction is not in the store, so it has no height yet
    intro t ht
    obtain ⟨hhist, hnot⟩ := (h.txs t).1 ht
    obtain ⟨height, hheight⟩ := mem_iff.1 hhist
    have hnone : w.cache.heights.lookup t ≠ some height := by
      intro hsome
      exact hnot (hw.heights t (mem_iff.2 ⟨height, hsome⟩))
    exact mem_map.2 ⟨(t, height), (h.new t height).2 ⟨hheight, hnone⟩, rfl⟩
  · intro t ht hdel
    exact ((h.delete t).1 hdel).2 (hlisted t ht)
  · intro e he
    obtain ⟨tx, htx, out, hout, hmine, -⟩ := (h.unblinds e.1 e.2).1 he
    refine ⟨tx, htx, out.scriptPubkey, ?_, hmine⟩
    rw [Transaction.scriptAt, hout, Option.map_some]

theorem transactionUpdate_fits {env : Env} {U : Set Transaction} {tx : Transaction}
    (htx : tx ∈ U) (w : Wollet) : Fits env U w.cache (transactionUpdate env w tx) := by
  refine ⟨?_, ?_, ?_, ?_, ?_⟩
  · intro e he
    rw [mem_singleton.1 he]
    exact ⟨rfl, htx⟩
  · intro t ht
    exact .inr ht
  · intro t ht
    exact ht
  · intro t _ hdel
    exact absurd hdel not_mem_nil
  · intro e he
    obtain ⟨o, secrets⟩ := e
    have hmem : (o, secrets) ∈ unblindOutputs env (fun s => s ∈ w.cache.paths) tx := he
    obtain ⟨htxid, out, hout, hmine, -⟩ := mem_unblindOutputs.1 hmem
    refine ⟨tx, ?_, out.scriptPubkey, ?_, .inl (of_decide_eq_true hmine)⟩
    · rw [htxid]
      exact mem_singleton.2 rfl
    · rw [Transaction.scriptAt, hout, Option.map_some]

section Step

variable {env : Env} {U : Set Transaction} {w w' : Wollet} {u : Update}
  {scripts : List ScriptEntry}

theorem unspentExact_iff_ledger (hw : Sound env U w) : UnspentExact w ↔
      {o | o ∈ w.cache.unspent} = Ledger.unspent OutPoint.txid (SpentBy w.disk.txs)
        {t | t ∈ w.cache.heights} {o | o ∈ w.cache.unblinded} ∧
      ∀ o s, w.cache.unspent.lookup o = some s → scriptOf w.disk.txs o = some s := by
  refine ⟨fun h => ⟨?_, fun o s hs => ((h o s).1 hs).2.2.1⟩, fun h o s => ⟨fun hs => ?_, ?_⟩⟩
  · ext o
    refine ⟨fun ho => ?_, fun ho => ?_⟩
    · obtain ⟨s, hs⟩ := mem_iff.1 ho
      obtain ⟨hun, hheight, -, -, hspent⟩ := (h o s).1 hs
      exact ⟨hun, hheight, hspent⟩
    · obtain ⟨hun, hheight, hspent⟩ := ho
      obtain ⟨-, s, hs, hpath⟩ := hw.unblinded o hun
      exact mem_iff.2 ⟨s, (h o s).2 ⟨hun, hheight, hs, hpath, hspent⟩⟩
  · have ho : o ∈ {o | o ∈ w.cache.unspent} := mem_iff.2 ⟨s, hs⟩
    rw [h.1] at ho
    obtain ⟨hun, hheight, hspent⟩ := ho
    obtain ⟨-, s', hs', hpath⟩ := hw.unblinded o hun
    have hss : s' = s := Option.some.inj (hs'.symm.trans (h.2 o s hs))
    exact ⟨hun, hheight, h.2 o s hs, hss ▸ hpath, hspent⟩
  · intro hlaw
    obtain ⟨hun, hheight, hs, -, hspent⟩ := hlaw
    have ho : o ∈ {o | o ∈ w.cache.unspent} := by
      rw [h.1]
      exact ⟨hun, hheight, hspent⟩
    obtain ⟨s', hs'⟩ := mem_iff.1 ho
    rw [hs', ← hs, h.2 o s' hs']

variable (hb : env.Binds U) (hw : Sound env U w) (hu : Fits env U w.cache u)

include hb hw hu

theorem Fits.scriptOf_unblind (ha : Accepts env u w.cache scripts) {o : OutPoint}
    {secrets : TxOutSecrets} (ho : (o, secrets) ∈ u.newTxs.unblinds) :
    ∃ s, scriptOf (w.disk.txs.extend u.newTxs.txs) o = some s ∧
      s ∈ w.cache.paths.extend (pathsOf scripts) := by
  obtain ⟨tx, htx, s, hs, hmine⟩ := hu.unblinds _ ho
  have hkey := hu.keyed _ htx
  have hmem : o.txid ∈ w.disk.txs.extend u.newTxs.txs :=
    mem_store_extend.2 (.inl (mem_map.2 ⟨_, htx, rfl⟩))
  obtain ⟨tx', htx'⟩ := mem_iff.1 hmem
  have hkey' := hw.keyed.extend hu.keyed o.txid tx' htx'
  have hst : tx'.stripped = tx.stripped := hb tx' hkey'.2 tx hkey.2 (hkey'.1.trans hkey.1)
  refine ⟨s, ?_, ?_⟩
  · rw [scriptOf, htx', Option.bind_some, Transaction.scriptAt_eq_of_stripped hst, hs]
  · rw [mem_extend, pathsOf_computed ha.scripts, mem_pathsOf]
    exact hmine.symm

variable (hcache : w'.cache = w.cache.applied env u scripts (w.disk.txs.extend u.newTxs.txs))
variable (htxs : w'.disk.txs = w.disk.txs.extend u.newTxs.txs)

include hcache htxs

/-- **Every update that fits keeps a wallet sound.** -/
theorem Sound.step (ha : Accepts env u w.cache scripts) : Sound env U w' := by
  refine ⟨?_, ?_, ?_, ?_⟩
  · rw [htxs]
    exact hw.keyed.extend hu.keyed
  · intro t ht
    rw [hcache, applied_txids, Finset.mem_union, mem_toFinset] at ht
    rw [htxs, mem_store_extend]
    rcases ht with ht | ht
    · exact .inr (hw.txids t ht)
    · exact .inl ht
  · intro t ht
    rw [hcache, applied_heights, mem_updateHeights] at ht
    rw [hcache, applied_txids, Finset.mem_union, mem_toFinset]
    rcases ht with ht | ⟨ht, -⟩
    · exact hu.listed t ht
    · exact .inl (hw.heights t ht)
  · intro o ho
    rw [hcache, applied_unblinded, mem_extend] at ho
    rw [hcache, applied_paths, htxs, applied_txids, Finset.mem_union, mem_toFinset]
    rcases ho with ⟨secrets, ho⟩ | ho
    · obtain ⟨tx, htx, -⟩ := hu.unblinds _ ho
      exact ⟨.inr (mem_map.2 ⟨_, htx, rfl⟩), hu.scriptOf_unblind hb hw ha ho⟩
    · obtain ⟨htxid, s, hs, hpath⟩ := hw.unblinded o ho
      refine ⟨.inl htxid, s, ?_, mem_extend.2 (.inr hpath)⟩
      rw [← scriptOf_stored hb hw.keyed hu.keyed (hw.txids _ htxid), hs]

theorem unspent_applied (hutxo : env.utxoOnly = false) (hw' : Sound env U w') :
    {o | o ∈ w'.cache.unspent} = Ledger.refresh OutPoint.txid (SpentBy w'.disk.txs)
      {o | o ∈ w.cache.unspent} {o | o ∈ w'.cache.unblinded}
      {t | t ∈ u.txidHeightNew.map (·.1)} {t | t ∈ u.txidHeightDelete} := by
  have hunspent : w'.cache.unspent = (w.cache.stage env u scripts).updateUnspent w'.disk.txs
      u.txidHeightNew u.txidHeightDelete u.newTxs.txs := by
    rw [hcache, applied_unspent, hutxo, htxs]
    rfl
  have hin (ids : List Txid) (o : OutPoint) :
      o ∈ inputsOf w'.disk.txs u.newTxs.txs ids ↔ ∃ t ∈ ids, SpentBy w'.disk.txs t o := by
    rw [htxs]
    exact mem_inputsOf_eq hb hw.keyed hu.keyed
  have hmine (o : OutPoint) (ho : o ∈ w'.cache.unblinded) :
      ∃ s, (w.cache.stage env u scripts).myScript w'.disk.txs u.newTxs.txs o = some s := by
    obtain ⟨-, s, hs, hpath⟩ := hw'.unblinded o ho
    refine ⟨s, ?_⟩
    rw [hcache, applied_paths] at hpath
    rw [myScript, htxs, outpointScript_eq hb hw.keyed hu.keyed, ← htxs, hs,
      Option.filter_some, if_pos]
    exact decide_eq_true hpath
  ext o
  have hmem : o ∈ w'.cache.unspent ↔ ∃ s, w'.cache.unspent.lookup o = some s := mem_iff
  have hadds : Adds (w.cache.stage env u scripts) w'.disk.txs u.txidHeightNew
      u.txidHeightDelete u.newTxs.txs o ↔ o ∈ w'.cache.unblinded ∧
        (o.txid ∈ u.txidHeightNew.map (·.1) ∨
          ∃ t ∈ u.txidHeightDelete, SpentBy w'.disk.txs t o) := by
    rw [Adds, hin, hcache, applied_unblinded]
    rfl
  rw [Set.mem_ofPred_eq, hmem, hunspent, lookup_updateUnspent]
  by_cases hrem : Removes w'.disk.txs u.txidHeightNew u.txidHeightDelete u.newTxs.txs o
  · rw [if_pos hrem]
    refine ⟨fun h => absurd h (by simp), fun h => ?_⟩
    rcases hrem with hspent | hdel
    · obtain ⟨t, ht, hsp⟩ := (hin _ _).1 hspent
      exact absurd hsp (h.2.1 t ht)
    · exact absurd hdel h.2.2
  · rw [if_neg hrem]
    have hnot : (∀ t ∈ u.txidHeightNew.map (·.1), ¬ SpentBy w'.disk.txs t o) ∧
        o.txid ∉ u.txidHeightDelete :=
      ⟨fun t ht hsp => hrem (.inl ((hin _ _).2 ⟨t, ht, hsp⟩)), fun h => hrem (.inr h)⟩
    by_cases hadd : Adds (w.cache.stage env u scripts) w'.disk.txs u.txidHeightNew
        u.txidHeightDelete u.newTxs.txs o
    · obtain ⟨s, hs⟩ := hmine o (hadds.1 hadd).1
      rw [if_pos hadd, hs]
      exact ⟨fun _ => ⟨.inr (hadds.1 hadd), hnot⟩, fun _ => ⟨s, rfl⟩⟩
    · rw [if_neg hadd]
      refine ⟨fun h => ⟨.inl (mem_iff.2 h), hnot⟩, fun h => ?_⟩
      rcases h.1 with hold | hput
      · exact mem_iff.1 hold
      · exact absurd (hadds.2 hput) hadd

theorem unspent_applied_script (hutxo : env.utxoOnly = false)
    (hold : ∀ o s, w.cache.unspent.lookup o = some s → scriptOf w.disk.txs o = some s)
    {o : OutPoint} {s : Script} (h : w'.cache.unspent.lookup o = some s) :
    scriptOf w'.disk.txs o = some s := by
  have hkept (ho : w.cache.unspent.lookup o = some s) : scriptOf w'.disk.txs o = some s := by
    have hs := hold o s ho
    have hmem : o.txid ∈ w.disk.txs := by
      obtain ⟨tx, htx, -⟩ := Option.bind_eq_some_iff.1 hs
      exact mem_iff.2 ⟨tx, htx⟩
    rw [htxs, ← scriptOf_stored hb hw.keyed hu.keyed hmem, hs]
  rw [hcache, applied_unspent, hutxo] at h
  simp only [Bool.false_eq_true, if_false, lookup_updateUnspent] at h
  split_ifs at h with hrem hadd
  · rw [Option.or_eq_some_iff] at h
    rcases h with h | ⟨-, h⟩
    · rw [myScript, Option.filter_eq_some_iff, outpointScript_eq hb hw.keyed hu.keyed] at h
      rw [htxs]
      exact h.1
    · exact hkept h
  · exact hkept h

/-- **No stale outpoint is put back.** Take an unblinded outpoint that the update adds to the
unspent map: an output of a listed transaction or an input of a deleted one, that no listed
transaction spends and whose own transaction is not deleted. Then its transaction is a wallet
transaction, and no transaction that keeps its height spends it. -/
def NothingStale (w : Wollet) (u : Update) : Prop :=
  ∀ o, (o ∈ w.cache.unblinded ∨ ∃ s, (o, s) ∈ u.newTxs.unblinds) →
    (o.txid ∈ u.txidHeightNew.map (·.1) ∨ ∃ t ∈ u.txidHeightDelete, KnownSpend w u t o) →
    (∀ t ∈ u.txidHeightNew.map (·.1), ¬ KnownSpend w u t o) → o.txid ∉ u.txidHeightDelete →
    (o.txid ∈ u.txidHeightNew.map (·.1) ∨ o.txid ∈ w.cache.heights) ∧
      ∀ t ∈ w.cache.heights, t ∉ u.txidHeightDelete → ¬ KnownSpend w u t o

theorem nothingStale_iff :
    NothingStale w u ↔ ∀ o, ¬ Ledger.Stale OutPoint.txid (SpentBy w'.disk.txs)
      {t | t ∈ w.cache.heights} {o | o ∈ w'.cache.unblinded}
      {t | t ∈ u.txidHeightNew.map (·.1)} {t | t ∈ u.txidHeightDelete} o := by
  have hspend (t : Txid) (o : OutPoint) : KnownSpend w u t o ↔ SpentBy w'.disk.txs t o := by
    rw [htxs]
    exact spends_of_stripped (stripped_before hb hw.keyed hu.keyed t) o
  have hunblinded (o : OutPoint) : o ∈ w'.cache.unblinded ↔
      o ∈ w.cache.unblinded ∨ ∃ s, (o, s) ∈ u.newTxs.unblinds := by
    rw [hcache, applied_unblinded, mem_extend, or_comm]
  simp only [NothingStale, hspend]
  refine ⟨fun h o hstale => ?_, fun h o ho hput hnew hdel => ⟨?_, ?_⟩⟩
  · obtain ⟨ho, hput, hnew, hdel, hwrong⟩ := hstale
    obtain ⟨htx, hkept⟩ := h o ((hunblinded o).1 ho) hput hnew hdel
    rcases hwrong with ⟨hnN, hnH⟩ | ⟨t, ht, htD, hsp⟩
    · exact htx.elim hnN hnH
    · exact hkept t ht htD hsp
  · by_contra hnone
    rw [not_or] at hnone
    exact h o ⟨(hunblinded o).2 ho, hput, hnew, hdel, .inl hnone⟩
  · intro t ht htD hsp
    exact h o ⟨(hunblinded o).2 ho, hput, hnew, hdel, .inr ⟨t, ht, htD, hsp⟩⟩

/-- **One step keeps the law exactly when it puts nothing stale back.** -/
theorem unspentExact_step_iff (hutxo : env.utxoOnly = false) (ha : Accepts env u w.cache scripts)
    (hexact : UnspentExact w) :
    UnspentExact w' ↔ NothingStale w u := by
  have hw' := hw.step hb hu hcache htxs ha
  obtain ⟨hkeys, hscripts⟩ := (unspentExact_iff_ledger hw).1 hexact
  -- the wallet's transactions spend the same outputs in the larger store
  have hledger : {o | o ∈ w.cache.unspent} = Ledger.unspent OutPoint.txid (SpentBy w'.disk.txs)
      {t | t ∈ w.cache.heights} {o | o ∈ w.cache.unblinded} := by
    rw [hkeys, htxs]
    ext o
    refine and_congr_right fun _ => and_congr_right fun _ => ?_
    refine forall_congr' fun t => forall_congr' fun ht => ?_
    rw [spentBy_stored hb hw.keyed hu.keyed (hw.txids _ (hw.heights t ht))]
  have hheights : {t | t ∈ w'.cache.heights} = {t | t ∈ w.cache.heights} \
      {t | t ∈ u.txidHeightDelete} ∪ {t | t ∈ u.txidHeightNew.map (·.1)} := by
    ext t
    rw [hcache, applied_heights]
    exact mem_updateHeights.trans or_comm
  have hsub : {o | o ∈ w.cache.unblinded} ⊆ {o | o ∈ w'.cache.unblinded} := by
    intro o ho
    rw [hcache, applied_unblinded]
    exact mem_extend.2 (.inr ho)
  have hnew (o : OutPoint) (ho : o ∈ w'.cache.unblinded) (hno : o ∉ w.cache.unblinded) :
      o.txid ∈ u.txidHeightNew.map (·.1) := by
    rw [hcache, applied_unblinded, mem_extend] at ho
    obtain ⟨secrets, hs⟩ := ho.resolve_right hno
    obtain ⟨tx, htx, -⟩ := hu.unblinds _ hs
    exact hu.brought _ (mem_map.2 ⟨_, htx, rfl⟩)
  have hscripts' (o : OutPoint) (s : Script) (h : w'.cache.unspent.lookup o = some s) :
      scriptOf w'.disk.txs o = some s :=
    unspent_applied_script hb hw hu hcache htxs hutxo hscripts h
  rw [unspentExact_iff_ledger hw', and_iff_left hscripts',
    unspent_applied hb hw hu hcache htxs hutxo hw', hledger, hheights,
    nothingStale_iff hb hw hu hcache htxs]
  exact Ledger.refresh_eq_iff hu.disjoint hsub hnew

end Step

/-! ## Histories -/

/-- A successful call and the update it applies: `apply_update` with an update that a scan could
build, or `apply_transaction`. -/
inductive Call (env : Env) (U : Set Transaction) (w : Wollet) (u : Update) (w' : Wollet) : Prop
  | scan (history : HashMap Txid (Option Height)) (hscan : ScanUpdate env w.cache history u)
      (hU : ∀ e ∈ u.newTxs.txs, e.2 ∈ U) (hok : applyUpdate env u w = .ok () w')
  | transaction (tx : Transaction) (delta : HashMap AssetId Int64) (htx : tx ∈ U)
      (hu : u = transactionUpdate env w tx) (hok : applyTransaction env tx w = .ok delta w')

/-- `Calls env U calls w`: the calls take a wallet with an empty cache to `w`. Each is listed with
the wallet it was made on. -/
inductive Calls (env : Env) (U : Set Transaction) : List (Wollet × Update) → Wollet → Prop
  | start (disk : Disk) (hdisk : Keyed env U disk.txs) : Calls env U [] (.fresh disk)
  | call {calls : List (Wollet × Update)} {w w' : Wollet} {u : Update}
      (h : Calls env U calls w) (hcall : Call env U w u w') : Calls env U (calls ++ [(w, u)]) w'

section History

variable {env : Env} {U : Set Transaction} {w w' : Wollet} {u : Update}
  {calls : List (Wollet × Update)}

theorem sound_fresh {disk : Disk} (h : Keyed env U disk.txs) : Sound env U (.fresh disk) where
  keyed := h
  txids := fun t ht => absurd ht (Finset.notMem_empty t)
  heights := fun t ht => absurd ht (AList.notMem_empty t)
  unblinded := fun o ho => absurd ho (AList.notMem_empty o)

theorem Call.applied (hw : Sound env U w) (h : Call env U w u w') :
    Fits env U w.cache u ∧ ∃ scripts, Accepts env u w.cache scripts ∧
      w'.cache = w.cache.applied env u scripts (w.disk.txs.extend u.newTxs.txs) ∧
      w'.disk.txs = w.disk.txs.extend u.newTxs.txs := by
  cases h with
  | scan history hscan hU hok => exact ⟨hscan.fits hw hU, applyUpdate_ok hok⟩
  | transaction tx delta htx hu hok =>
    subst hu
    exact ⟨transactionUpdate_fits htx w, applyUpdate_ok (applyTransaction_ok hok)⟩

theorem Calls.sound (hb : env.Binds U) (h : Calls env U calls w) : Sound env U w := by
  induction h with
  | start disk hdisk => exact sound_fresh hdisk
  | call _ hcall ih =>
    obtain ⟨hfits, scripts, ha, hcache, htxs⟩ := hcall.applied ih
    exact ih.step hb hfits hcache htxs ha

/-- Each entry of the unspent map has the script of the stored output. -/
def Wollet.ScriptsStored (w : Wollet) : Prop :=
  ∀ o s, w.cache.unspent.lookup o = some s → scriptOf w.disk.txs o = some s

/-- Stale or not, what the unspent map lists is a stored output, after every history. -/
theorem Calls.unspent_scripts_stored (hutxo : env.utxoOnly = false) (hb : env.Binds U)
    (h : Calls env U calls w) : w.ScriptsStored := by
  induction h with
  | start disk hdisk => exact fun o s ho => absurd ho (by simp [Wollet.fresh, Cache.default])
  | call hprev hcall ih =>
    have hw := hprev.sound hb
    obtain ⟨hfits, scripts, -, hcache, htxs⟩ := hcall.applied hw
    exact fun o s ho => unspent_applied_script hb hw hfits hcache htxs hutxo ih ho

/-- **The law of the unspent map over a history.** Whatever calls are made, the law holds before
and after each of them exactly when no call puts a stale outpoint back. -/
theorem unspentExact_iff (hutxo : env.utxoOnly = false) (hb : env.Binds U)
    (h : Calls env U calls w) :
    (∀ v ∈ calls.map Prod.fst ++ [w], UnspentExact v) ↔ ∀ e ∈ calls, NothingStale e.1 e.2 := by
  induction h with
  | start disk hdisk => simpa using unspentExact_fresh disk
  | @call calls w w' u hprev hcall ih =>
    have hw := hprev.sound hb
    obtain ⟨hfits, scripts, ha, hcache, htxs⟩ := hcall.applied hw
    have hstep (hexact : UnspentExact w) : UnspentExact w' ↔ NothingStale w u :=
      unspentExact_step_iff hb hw hfits hcache htxs hutxo ha hexact
    have hlast : (∀ v ∈ (calls ++ [(w, u)]).map Prod.fst ++ [w'], UnspentExact v) ↔
        (∀ v ∈ calls.map Prod.fst ++ [w], UnspentExact v) ∧ UnspentExact w' := by
      simp only [map_append, map_cons, map_nil, forall_mem_append, forall_mem_singleton]
    have hcalls : (∀ e ∈ calls ++ [(w, u)], NothingStale e.1 e.2) ↔
        (∀ e ∈ calls, NothingStale e.1 e.2) ∧ NothingStale w u := by
      simp only [forall_mem_append, forall_mem_singleton]
    rw [hlast, hcalls, ← ih]
    refine and_congr_right fun hall => hstep (hall w ?_)
    exact mem_append_right _ (mem_singleton.2 rfl)

end History

/-! ## A parent confirmed before its child -/

namespace Relisted

def script : Script := [0x51, 0x02, 0x00, 0x01]

def parent : Transaction := ⟨[], [⟨.explicit 1, .explicit 1000, .null, script, none⟩]⟩

def child : Transaction :=
  ⟨[⟨⟨0, 0⟩, .null⟩], [⟨.explicit 1, .explicit 1000, .null, [2], none⟩]⟩

def env : Env := Concrete.env (fun tx => BitVec.ofNat 256 tx.input.length) [script]

def server (height : Height) (parentHeight : Int32) : Backend :=
  Concrete.server env height [parent, child] fun s =>
    if s = script then [⟨0, parentHeight, none⟩, ⟨1, 0, none⟩] else []

def first : Update := Concrete.scanned env (server 4 0) (.fresh .empty)

def before : Wollet := Concrete.updated env first (.fresh .empty)

def second : Update := Concrete.scanned env (server 5 5) before

def after : Wollet := Concrete.updated env second before

theorem binds : env.Binds {parent, child} := by
  have hinj : Set.InjOn env.txid {parent, child} := Set.injOn_pair.2 fun h => absurd h (by decide)
  exact fun tx htx tx' htx' h => congrArg _ (hinj htx htx' h)

theorem calls : Calls env {parent, child} [(.fresh .empty, first), (before, second)] after := by
  have hstart : Calls env {parent, child} [] (.fresh .empty) :=
    .start .empty fun t tx h => absurd h (by simp [Disk.empty])
  obtain ⟨h₁, hscan₁⟩ := fullScanToIndex_scanUpdate (Concrete.server_faithful _ _ _ _)
    (show fullScanToIndex env (server 4 0) (.fresh .empty) 0 = .ok (some first) from rfl)
  obtain ⟨h₂, hscan₂⟩ := fullScanToIndex_scanUpdate (Concrete.server_faithful _ _ _ _)
    (show fullScanToIndex env (server 5 5) before 0 = .ok (some second) from rfl)
  have htxs₁ : first.newTxs.txs = [(1, child), (0, parent)] := rfl
  have htxs₂ : second.newTxs.txs = [] := rfl
  refine (hstart.call (.scan h₁ hscan₁ ?_ rfl)).call (.scan h₂ hscan₂ ?_ rfl)
  · simp [htxs₁]
  · simp [htxs₂]

/-- After the second scan the spent output counts as unspent. -/
theorem unspentExact_fails : Calls env {parent, child}
    [(.fresh .empty, first), (before, second)] after ∧ ¬ UnspentExact after := by
  refine ⟨calls, fun h => ?_⟩
  obtain ⟨-, -, -, -, hspent⟩ := (h ⟨0, 0⟩ script).1 rfl
  exact hspent 1 (by decide) ⟨child, rfl, by decide⟩

/-- The second scan is the one that puts a stale outpoint back. -/
theorem unspentExact_iff_relisted : (∀ v ∈ [.fresh .empty, before, after], UnspentExact v) ↔
      ∀ e ∈ [(.fresh .empty, first), (before, second)], NothingStale e.1 e.2 :=
  unspentExact_iff rfl binds calls

theorem unspent_scripts_relisted : after.ScriptsStored :=
  Calls.unspent_scripts_stored rfl binds calls

end Relisted

end Swk
