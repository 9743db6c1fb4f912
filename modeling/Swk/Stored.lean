import Swk.Wollet

/-!
# The transactions a wallet has at hand

A transaction is looked up by its txid, first among those an update brings and then in the
transaction store. Which copy is found may depend on the moment, but as long as no two of the
transactions in play share a txid, all copies agree up to witness data (`stripped_eq`), so they
spend the same outputs and pay the same scripts.
-/

namespace Swk

open Cache

/-! ## What a txid commits to -/

variable (env : Env) (U : Set Transaction)

/-- Of the transactions in `U`, no two share their txid, except up to witness data. -/
def Env.Binds : Prop :=
  ∀ tx ∈ U, ∀ tx' ∈ U, env.txid tx = env.txid tx' → tx.stripped = tx'.stripped

/-- Every transaction of the store is at its txid. -/
def Keyed (store : TxsStore) : Prop :=
  ∀ t tx, store.lookup t = some tx → env.txid tx = t ∧ tx ∈ U

def KeyedList (txs : List (Txid × Transaction)) : Prop :=
  ∀ e ∈ txs, e.1 = env.txid e.2 ∧ e.2 ∈ U

section Store

variable {env : Env} {U : Set Transaction} {store : TxsStore} {txs : List (Txid × Transaction)}

variable {t : Txid} {x y : Option Transaction}

theorem mem_store_extend : t ∈ store.extend txs ↔ t ∈ txs.map Prod.fst ∨ t ∈ store := by
  rw [HashMap.mem_extend, ← HashMap.lastValue_isSome, ← HashMap.mem_keys_iff]

theorem txAsFallback_isSome :
    (txAsFallback store txs t).isSome ↔ t ∈ txs.map Prod.fst ∨ t ∈ store := by
  rw [txAsFallback, Option.isSome_or, Bool.or_eq_true, Option.isSome_map, List.find?_isSome,
    AList.lookup_isSome]
  refine or_congr_left ?_
  simp only [decide_eq_true_eq, List.mem_map]

/-- **Whichever way a transaction is found, it is the same up to its witness.** -/
theorem stripped_eq (hb : env.Binds U) (hx : ∀ tx, x = some tx → env.txid tx = t ∧ tx ∈ U)
    (hy : ∀ tx, y = some tx → env.txid tx = t ∧ tx ∈ U) (hsome : x.isSome ↔ y.isSome) :
    x.map Transaction.stripped = y.map Transaction.stripped := by
  cases x with
  | none =>
    cases y with
    | none => rfl
    | some ty => exact absurd (hsome.2 rfl) (by simp)
  | some tx =>
    cases y with
    | none => exact absurd (hsome.1 rfl) (by simp)
    | some ty =>
      obtain ⟨hx1, hx2⟩ := hx tx rfl
      obtain ⟨hy1, hy2⟩ := hy ty rfl
      rw [Option.map_some, Option.map_some, hb tx hx2 ty hy2 (hx1.trans hy1.symm)]

theorem spends_of_stripped (h : x.map Transaction.stripped = y.map Transaction.stripped)
    (o : OutPoint) : (∃ tx, x = some tx ∧ o ∈ tx.spends) ↔ ∃ tx, y = some tx ∧ o ∈ tx.spends := by
  cases x with
  | none =>
    cases y with
    | none => exact Iff.rfl
    | some ty => exact absurd h (by simp)
  | some tx =>
    cases y with
    | none => exact absurd h (by simp)
    | some ty =>
      have hst : tx.stripped = ty.stripped := by simpa using h
      simp [Transaction.spends_eq_of_stripped hst]

theorem scriptAt_of_stripped (h : x.map Transaction.stripped = y.map Transaction.stripped)
    (vout : Nat) : (x.bind fun tx => tx.scriptAt vout) = y.bind fun tx => tx.scriptAt vout := by
  have hmap (z : Option Transaction) : (z.bind fun tx => tx.scriptAt vout) =
      (z.map Transaction.stripped).bind fun tx => tx.scriptAt vout := by
    cases z with
    | none => rfl
    | some tx => exact (Transaction.scriptAt_stripped tx vout).symm
  rw [hmap x, hmap y, h]

variable (hb : env.Binds U) (hs : Keyed env U store) (ht : KeyedList env U txs)

include hs ht

theorem Keyed.extend :
    Keyed env U (store.extend txs) := by
  intro t tx h
  rw [HashMap.lookup_extend, Option.or_eq_some_iff] at h
  rcases h with h | ⟨-, h⟩
  · have hmem := ht _ (HashMap.mem_of_lastValue h)
    exact ⟨hmem.1.symm, hmem.2⟩
  · exact hs t tx h

theorem txAsFallback_keyed {tx : Transaction} (h : txAsFallback store txs t = some tx) :
    env.txid tx = t ∧ tx ∈ U := by
  rw [txAsFallback, Option.or_eq_some_iff] at h
  rcases h with h | ⟨-, h⟩
  · obtain ⟨e, he, rfl⟩ := Option.map_eq_some_iff.1 h
    have hmem := ht e (List.mem_of_find?_eq_some he)
    have hkey : e.1 = t := by simpa using List.find?_some he
    exact ⟨hmem.1.symm.trans hkey, hmem.2⟩
  · exact hs t tx h

include hb

theorem stripped_txAsFallback (t : Txid) :
    (txAsFallback (store.extend txs) txs t).map Transaction.stripped =
      ((store.extend txs).lookup t).map Transaction.stripped := by
  have hs' := hs.extend ht
  refine stripped_eq hb (fun tx h => txAsFallback_keyed hs' ht h) (hs' t) ?_
  rw [txAsFallback_isSome, AList.lookup_isSome, mem_store_extend]
  exact ⟨fun h => h.elim .inl id, fun h => .inr h⟩

theorem stripped_before (t : Txid) : (txAsFallback store txs t).map Transaction.stripped =
      ((store.extend txs).lookup t).map Transaction.stripped := by
  refine stripped_eq hb (fun tx h => txAsFallback_keyed hs ht h) (hs.extend ht t) ?_
  rw [txAsFallback_isSome, AList.lookup_isSome, mem_store_extend]

omit ht in
theorem stripped_append {txs' : List (Txid × Transaction)} (ht : KeyedList env U (txs ++ txs'))
    {tx : Transaction} (h : txAsFallback store txs t = some tx) :
    (txAsFallback store txs t).map Transaction.stripped =
      (txAsFallback store (txs ++ txs') t).map Transaction.stripped := by
  have ht₁ : KeyedList env U txs := fun e he => ht e (List.mem_append_left _ he)
  refine stripped_eq hb (fun tx h => txAsFallback_keyed hs ht₁ h)
    (fun tx h => txAsFallback_keyed hs ht h) ⟨fun hsome => ?_, fun _ => by rw [h]; rfl⟩
  rw [txAsFallback_isSome] at hsome ⊢
  rw [List.map_append, List.mem_append]
  exact hsome.imp_left .inl

theorem stripped_stored (hmem : t ∈ store) : (store.lookup t).map Transaction.stripped =
      ((store.extend txs).lookup t).map Transaction.stripped := by
  refine stripped_eq hb (hs t) (hs.extend ht t) ?_
  rw [AList.lookup_isSome, AList.lookup_isSome, mem_store_extend]
  exact ⟨fun h => .inr h, fun _ => hmem⟩

/-- A transaction the wallet knows once it has the update spends `o`. -/
def KnownSpend (w : Wollet) (u : Update) (t : Txid) (o : OutPoint) : Prop :=
  ∃ tx, txAsFallback w.disk.txs u.newTxs.txs t = some tx ∧ o ∈ tx.spends

end Store

/-! ## The unspent map and the transactions at hand -/

section Unspent

variable {c c' : Cache} {store store' : TxsStore} {txs txs' : List (Txid × Transaction)}

theorem mem_inputsOf_congr {ids : List Txid}
    (h : ∀ t ∈ ids, (txAsFallback store txs t).map Transaction.stripped =
      (txAsFallback store' txs' t).map Transaction.stripped) (o : OutPoint) :
    o ∈ inputsOf store txs ids ↔ o ∈ inputsOf store' txs' ids := by
  rw [mem_inputsOf, mem_inputsOf]
  exact exists_congr fun t => and_congr_right fun ht => spends_of_stripped (h t ht) o

theorem updateUnspent_congr (hpaths : HashMap.Same c.paths c'.paths)
    (hunblinded : HashMap.Same c.unblinded c'.unblinded)
    (hunspent : HashMap.Same c.unspent c'.unspent) {new : List (Txid × Option Height)}
    {del : List Txid}
    (hnew : ∀ t ∈ new.map (·.1), (txAsFallback store txs t).map Transaction.stripped =
      (txAsFallback store' txs' t).map Transaction.stripped)
    (hdel : ∀ t ∈ del, (txAsFallback store txs t).map Transaction.stripped =
      (txAsFallback store' txs' t).map Transaction.stripped)
    (hown : ∀ o ∈ c.unblinded, (txAsFallback store txs o.txid).map Transaction.stripped =
      (txAsFallback store' txs' o.txid).map Transaction.stripped) :
    HashMap.Same (c.updateUnspent store new del txs) (c'.updateUnspent store' new del txs') := by
  intro o
  have hremoves : Removes store new del txs o ↔ Removes store' new del txs' o := by
    rw [Removes, Removes, mem_inputsOf_congr hnew]
  have hadds : Adds c store new del txs o ↔ Adds c' store' new del txs' o := by
    rw [Adds, Adds, mem_inputsOf_congr hdel, hunblinded.mem]
  have hscript (ha : Adds c store new del txs o) :
      c.myScript store txs o = c'.myScript store' txs' o := by
    have hout : outpointScript store txs o = outpointScript store' txs' o :=
      scriptAt_of_stripped (hown o ha.1) o.vout
    simp only [myScript, hout, hpaths.mem]
  rw [lookup_updateUnspent, lookup_updateUnspent, hunspent o]
  by_cases hr : Removes store new del txs o
  · rw [if_pos hr, if_pos (hremoves.1 hr)]
  · rw [if_neg hr, if_neg (mt hremoves.2 hr)]
    by_cases ha : Adds c store new del txs o
    · rw [if_pos ha, if_pos (hadds.1 ha), hscript ha]
    · rw [if_neg ha, if_neg (mt hadds.2 ha)]

theorem updateUnspentUtxosOnly_congr (hunspent : HashMap.Same c.unspent c'.unspent)
    {unspent : List OutPoint}
    (hown : ∀ o ∈ unspent, (txAsFallback store txs o.txid).map Transaction.stripped =
      (txAsFallback store' txs' o.txid).map Transaction.stripped) :
    HashMap.Same (c.updateUnspentUtxosOnly store unspent txs)
      (c'.updateUnspentUtxosOnly store' unspent txs') := by
  intro o
  rw [lookup_updateUnspentUtxosOnly, lookup_updateUnspentUtxosOnly, hunspent o]
  by_cases ho : o ∈ unspent
  · have hout : outpointScript store txs o = outpointScript store' txs' o :=
      scriptAt_of_stripped (hown o ho) o.vout
    rw [if_pos ho, if_pos ho, hout]
  · rw [if_neg ho, if_neg ho]

end Unspent

end Swk
