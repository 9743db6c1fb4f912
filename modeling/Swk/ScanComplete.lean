import Swk.Same
import Swk.SilentChange
import Swk.Unspent

/-!
# Scan completeness

A scan downloads a transaction the first time it sees it and unblinds its outputs to the scripts
known by then. Later scans derive more scripts, and a transaction that is in the store is not
looked at again. So an output is missed when its script is derived after its transaction was
stored, and it is found only if it was unblinded before.

`NothingMissed` is the condition on one scan; `scan_complete_iff` says that a history of scans
leaves no output behind exactly when every scan meets it, and that the wallet then knows what a
new wallet would find, provided that no transaction it unblinded has left the history.
-/

namespace Swk

open Cache List HashMap

/-- The output `o` of a stored transaction pays one of our scripts and opens to `secrets`. -/
def Payable (env : Env) (store : TxsStore) (mine : Script → Prop) (o : OutPoint)
    (secrets : TxOutSecrets) : Prop :=
  ∃ tx out, store.lookup o.txid = some tx ∧ tx.output[o.vout]? = some out ∧
    mine out.scriptPubkey ∧ tryUnblind env.secp env.descriptor out = .ok secrets

/-- Every output of a listed transaction that pays one of the wallet's scripts and can be opened
is unblinded. -/
def Complete (env : Env) (w : Wollet) : Prop :=
  ∀ o secrets, o.txid ∈ w.cache.heights →
    Payable env w.disk.txs (fun s => s ∈ w.cache.paths) o secrets → o ∈ w.cache.unblinded

/-- No transaction that is stored already is listed for the first time, or pays a script derived
for the first time, with an output that was not unblinded before. -/
def NothingMissed (env : Env) (w : Wollet) (u : Update) : Prop :=
  ∀ o secrets, o.txid ∈ w.cache.txids → (o.txid ∈ u.txidHeightNew.map (·.1) ∨
      o.txid ∈ w.cache.heights ∧ o.txid ∉ u.txidHeightDelete) →
    Payable env w.disk.txs (fun s => s ∈ w.cache.paths ∨
      s ∈ u.scriptsWithBlindingPubkey.map fun e => e.2.2.1) o secrets →
    ¬ (o.txid ∈ w.cache.heights ∧ Payable env w.disk.txs (fun s => s ∈ w.cache.paths) o secrets) →
    o ∈ w.cache.unblinded

/-! ## One scan -/

section Step

variable {env : Env} {U : Set Transaction} {w w' : Wollet} {u : Update}
  {scripts : List ScriptEntry} {history : HashMap Txid (Option Height)}

theorem Payable.congr {store store' : TxsStore} {mine mine' : Script → Prop} {o : OutPoint}
    {secrets : TxOutSecrets} (hstore : store'.lookup o.txid = store.lookup o.txid)
    (hmine : ∀ s, mine s → mine' s) (h : Payable env store mine o secrets) :
    Payable env store' mine' o secrets := by
  obtain ⟨tx, out, htx, hout, hs, hopen⟩ := h
  exact ⟨tx, out, hstore.trans htx, hout, hmine _ hs, hopen⟩

variable (hu : ScanUpdate env w.cache history u)

include hu

theorem ScanUpdate.lookup_stored {t : Txid} (ht : t ∈ w.cache.txids) :
    (w.disk.txs.extend u.newTxs.txs).lookup t = w.disk.txs.lookup t := by
  have hnone : HashMap.lastValue t u.newTxs.txs = none := by
    rw [← Option.not_isSome_iff_eq_none, ← mem_keys_iff, hu.txs]
    exact fun h => h.2 ht
  rw [lookup_extend, hnone, Option.none_or]

theorem ScanUpdate.lookup_downloaded {t : Txid} {tx : Transaction} (hhist : t ∈ history)
    (ht : t ∉ w.cache.txids) (h : (w.disk.txs.extend u.newTxs.txs).lookup t = some tx) :
    (t, tx) ∈ u.newTxs.txs := by
  have hsome := mem_keys_iff.1 ((hu.txs t).2 ⟨hhist, ht⟩)
  obtain ⟨tx', htx'⟩ := Option.isSome_iff_exists.1 hsome
  rw [lookup_extend, htx', Option.some_or] at h
  cases h
  exact mem_of_lastValue htx'

theorem ScanUpdate.mem_heights {t : Txid} :
    t ∈ updateHeights w.cache.heights u.txidHeightNew u.txidHeightDelete ↔ t ∈ history := by
  rw [mem_updateHeights]
  refine ⟨fun h => ?_, fun h => ?_⟩
  · rcases h with h | ⟨h, hdel⟩
    · obtain ⟨⟨t', height⟩, he, rfl⟩ := mem_map.1 h
      exact mem_iff.2 ⟨height, ((hu.new _ _).1 he).1⟩
    · by_contra hhist
      exact hdel ((hu.delete t).2 ⟨h, hhist⟩)
  · obtain ⟨height, hheight⟩ := mem_iff.1 h
    by_cases hsame : w.cache.heights.lookup t = some height
    · exact .inr ⟨mem_iff.2 ⟨height, hsame⟩, fun hdel => ((hu.delete t).1 hdel).2 h⟩
    · exact .inl (mem_map.2 ⟨(t, height), (hu.new t height).2 ⟨hheight, hsame⟩, rfl⟩)

/-- The update of a scan is applied to the wallet that was scanned. -/
structure ScanStep (env : Env) (history : HashMap Txid (Option Height)) (w : Wollet) (u : Update)
    (w' : Wollet) : Prop where
  update : ScanUpdate env w.cache history u
  heights : ∀ t, t ∈ w'.cache.heights ↔
    t ∈ u.txidHeightNew.map (·.1) ∨ t ∈ w.cache.heights ∧ t ∉ u.txidHeightDelete
  paths : ∀ s, s ∈ w'.cache.paths ↔
    s ∈ w.cache.paths ∨ s ∈ u.scriptsWithBlindingPubkey.map fun e => e.2.2.1
  unblinded : w'.cache.unblinded = w.cache.unblinded.extend u.newTxs.unblinds
  txs : w'.disk.txs = w.disk.txs.extend u.newTxs.txs

theorem ScanStep.of_ok (hok : applyUpdate env u w = .ok () w') : ScanStep env history w u w' := by
  obtain ⟨scripts, ha, hcache, htxs⟩ := applyUpdate_ok hok
  refine ⟨hu, fun t => ?_, fun s => ?_, ?_, htxs⟩
  · rw [hcache, applied_heights, mem_updateHeights]
  · rw [hcache, applied_paths, mem_extend, pathsOf_computed ha.scripts, mem_pathsOf]
    exact or_comm
  · rw [hcache, applied_unblinded]

omit hu

variable (h : ScanStep env history w u w')

include h

theorem ScanStep.mem_heights {t : Txid} :
    t ∈ w'.cache.heights ↔ t ∈ history := by
  rw [h.heights, ← mem_updateHeights]
  exact h.update.mem_heights

theorem ScanStep.mem_unblinded {o : OutPoint} :
    o ∈ w'.cache.unblinded ↔
      (∃ secrets, (o, secrets) ∈ u.newTxs.unblinds) ∨ o ∈ w.cache.unblinded := by
  rw [h.unblinded, mem_extend]

/-- **A scan of a complete wallet leaves it complete exactly when it misses nothing.** -/
theorem complete_step_iff (hw : Complete env w) :
    Complete env w' ↔ NothingMissed env w u := by
  have hu := h.update
  refine ⟨fun hw' o secrets hstored hlisted hpay _ => ?_, fun hmissed o secrets hlisted hpay => ?_⟩
  · have hpay' : Payable env w'.disk.txs (fun s => s ∈ w'.cache.paths) o secrets := by
      refine hpay.congr ?_ fun s => (h.paths s).2
      rw [h.txs]
      exact hu.lookup_stored hstored
    -- a stored transaction is not downloaded, so the scan did not unblind it
    rcases h.mem_unblinded.1 (hw' o secrets ((h.heights _).2 hlisted) hpay') with ⟨s, hs⟩ | hold
    · obtain ⟨tx, htx, -⟩ := (hu.unblinds o s).1 hs
      exact absurd hstored ((hu.txs _).1 (mem_map.2 ⟨_, htx, rfl⟩)).2
    · exact hold
  · rw [h.mem_unblinded]
    rw [h.txs] at hpay
    by_cases hstored : o.txid ∈ w.cache.txids
    · right
      have hpay' := hpay.congr (hu.lookup_stored hstored).symm fun s => (h.paths s).1
      by_cases hknown : o.txid ∈ w.cache.heights ∧
          Payable env w.disk.txs (fun s => s ∈ w.cache.paths) o secrets
      · exact hw o secrets hknown.1 hknown.2
      · exact hmissed o secrets hstored ((h.heights _).1 hlisted) hpay' hknown
    · left
      obtain ⟨tx, out, htx, hout, hmine, hopen⟩ := hpay
      have hdown := hu.lookup_downloaded (h.mem_heights.1 hlisted) hstored htx
      exact ⟨secrets, (hu.unblinds o secrets).2 ⟨tx, hdown, out, hout, (h.paths _).1 hmine, hopen⟩⟩

/-- Every unblinded output is one the wallet can open. -/
def Opened (env : Env) (w : Wollet) : Prop :=
  ∀ o secrets, w.cache.unblinded.lookup o = some secrets →
    Payable env w.disk.txs (fun s => s ∈ w.cache.paths) o secrets

theorem Opened.step (hinj : Set.InjOn env.txid U) (hw : Opened env w) (hsound : Sound env U w)
    (hU : ∀ e ∈ u.newTxs.txs, e.2 ∈ U) : Opened env w' := by
  intro o secrets ho
  have hu := h.update
  rw [h.unblinded, lookup_extend, Option.or_eq_some_iff] at ho
  rcases ho with ho | ⟨-, ho⟩
  · obtain ⟨tx, htx, out, hout, hmine, hopen⟩ :=
      (hu.unblinds o secrets).1 (mem_of_lastValue ho)
    obtain ⟨hhist, hnew⟩ := (hu.txs _).1 (mem_map.2 ⟨_, htx, rfl⟩)
    have hmem : o.txid ∈ w'.disk.txs := by
      rw [h.txs]
      exact mem_store_extend.2 (.inl (mem_map.2 ⟨_, htx, rfl⟩))
    obtain ⟨tx', htx'⟩ := mem_iff.1 hmem
    have hdown := hu.lookup_downloaded hhist hnew (by rwa [h.txs] at htx')
    have heq : tx' = tx :=
      hinj (hU _ hdown) (hU _ htx) ((hu.txids _ hdown).symm.trans (hu.txids _ htx))
    subst heq
    exact ⟨tx', out, htx', hout, (h.paths _).2 hmine, hopen⟩
  · refine (hw o secrets ho).congr ?_ fun s hs => (h.paths s).2 (.inl hs)
    rw [h.txs]
    exact hu.lookup_stored (hsound.unblinded o (mem_iff.2 ⟨secrets, ho⟩)).1

end Step

/-! ## Histories of scans -/

/-- `Scans env U calls w`: scans take a wallet with an empty cache to `w`. Each is listed with the
wallet it was made on and its update. The servers answer as they like, with transactions of `U`. -/
inductive Scans (env : Env) (U : Set Transaction) : List (Wollet × Update) → Wollet → Prop
  | start (disk : Disk) (hdisk : Keyed env U disk.txs) : Scans env U [] (.fresh disk)
  | scan {calls : List (Wollet × Update)} {w w' : Wollet} {u : Update} {server : Backend}
      {index : UInt32} (h : Scans env U calls w) (hserver : server.Faithful env)
      (hscan : fullScanToIndex env server w index = .ok (some u))
      (hU : ∀ e ∈ u.newTxs.txs, e.2 ∈ U) (hok : applyUpdate env u w = .ok () w') :
      Scans env U (calls ++ [(w, u)]) w'

/-- A new wallet, scanned once, that has the transactions and the scripts of `w`. -/
structure FreshScan (env : Env) (U : Set Transaction) (w f : Wollet) : Prop where
  scanned : ∃ v u, Scans env U [(v, u)] f
  heights : ∀ t, t ∈ f.cache.heights ↔ t ∈ w.cache.heights
  paths : ∀ s, s ∈ f.cache.paths ↔ s ∈ w.cache.paths

/-- Every transaction that some scan unblinded an output of is still listed. -/
def StillListed (calls : List (Wollet × Update)) (w : Wollet) : Prop :=
  ∀ e ∈ calls, ∀ x ∈ e.2.newTxs.unblinds, x.1.txid ∈ w.cache.heights

section History

variable {env : Env} {U : Set Transaction} {w w' f : Wollet} {u : Update}
  {calls : List (Wollet × Update)}

theorem binds_of_injOn (h : Set.InjOn env.txid U) : env.Binds U := by
  intro tx htx tx' htx' heq
  rw [h htx htx' heq]

variable (h : Scans env U calls w)

include h

theorem Scans.toCalls : Calls env U calls w := by
  induction h with
  | start disk hdisk => exact .start disk hdisk
  | scan _ hserver hscan hU hok ih =>
    obtain ⟨history, hu⟩ := fullScanToIndex_scanUpdate hserver hscan
    exact ih.call (.scan history hu hU hok)

theorem Scans.sound (hinj : Set.InjOn env.txid U) : Sound env U w :=
  h.toCalls.sound (binds_of_injOn hinj)

theorem Scans.opened (hinj : Set.InjOn env.txid U) : Opened env w := by
  induction h with
  | start disk hdisk =>
    intro o secrets ho
    exact absurd (mem_iff.2 ⟨secrets, ho⟩) (AList.notMem_empty o)
  | scan hprev hserver hscan hU hok ih =>
    obtain ⟨history, hu⟩ := fullScanToIndex_scanUpdate hserver hscan
    exact ih.step (ScanStep.of_ok hu hok) hinj (hprev.sound hinj) hU

theorem Scans.mem_unblinded (o : OutPoint) :
    o ∈ w.cache.unblinded ↔ ∃ e ∈ calls, ∃ secrets, (o, secrets) ∈ e.2.newTxs.unblinds := by
  induction h with
  | start disk hdisk => simp [Wollet.fresh, Cache.default]
  | scan _ hserver hscan hU hok ih =>
    obtain ⟨history, hu⟩ := fullScanToIndex_scanUpdate hserver hscan
    rw [(ScanStep.of_ok hu hok).mem_unblinded, ih]
    simp only [mem_append, mem_singleton, or_and_right, exists_or, exists_eq_left]
    exact or_comm

theorem Scans.start_of_nil (hnil : calls = []) :
    ∃ disk, w = .fresh disk := by
  cases h with
  | start disk _ => exact ⟨disk, rfl⟩
  | scan => exact absurd hnil (append_ne_nil_of_right_ne_nil _ (cons_ne_nil _ _))

omit h

theorem FreshScan.exact (h : FreshScan env U w f) :
    Complete env f ∧ ∀ o ∈ f.cache.unblinded, o.txid ∈ f.cache.heights := by
  obtain ⟨v, u, hscans⟩ := h.scanned
  generalize hl : [(v, u)] = l at hscans
  cases hscans with
  | start => cases hl
  | @scan _ v' _ u' _ _ hprev hserver hscan hU hok =>
    rcases singleton_eq_append_iff.1 hl with ⟨hnil, -⟩ | ⟨-, hnil⟩
    · obtain ⟨disk, rfl⟩ := hprev.start_of_nil hnil
      obtain ⟨history, hu⟩ := fullScanToIndex_scanUpdate hserver hscan
      have hstep := ScanStep.of_ok hu hok
      refine ⟨(complete_step_iff hstep ?_).2 ?_, fun o ho => ?_⟩
      · intro o _ ho
        exact absurd ho (AList.notMem_empty _)
      · intro o _ ho
        exact absurd ho (Finset.notMem_empty _)
      · rcases hstep.mem_unblinded.1 ho with ⟨secrets, hs⟩ | hold
        · obtain ⟨tx, htx, -⟩ := (hu.unblinds o secrets).1 hs
          exact hstep.mem_heights.2 ((hu.txs _).1 (mem_map.2 ⟨_, htx, rfl⟩)).1
        · exact absurd hold (AList.notMem_empty _)
    · exact absurd hnil (cons_ne_nil _ _)

variable {v v' : Wollet} {o : OutPoint} {secrets : TxOutSecrets}

theorem Payable.transfer (hinj : Set.InjOn env.txid U) (hv : Sound env U v) (hv' : Sound env U v')
    (hlisted : o.txid ∈ v'.cache.heights) (hpaths : ∀ s, s ∈ v.cache.paths → s ∈ v'.cache.paths)
    (h : Payable env v.disk.txs (fun s => s ∈ v.cache.paths) o secrets) :
    Payable env v'.disk.txs (fun s => s ∈ v'.cache.paths) o secrets := by
  refine h.congr ?_ hpaths
  obtain ⟨tx, _, htx, -⟩ := h
  obtain ⟨tx', htx'⟩ := mem_iff.1 (hv'.txids _ (hv'.heights _ hlisted))
  have hkey := hv.keyed _ _ htx
  have hkey' := hv'.keyed _ _ htx'
  rw [htx, htx', hinj hkey'.2 hkey.2 (hkey'.1.trans hkey.1.symm)]

theorem Opened.lookup_eq (hinj : Set.InjOn env.txid U) (hv : Sound env U v) (hv' : Sound env U v')
    (hopened : Opened env v) (hopened' : Opened env v') (hcomplete : Complete env v')
    (hlisted : o.txid ∈ v'.cache.heights) (hpaths : ∀ s, s ∈ v.cache.paths → s ∈ v'.cache.paths)
    (h : v.cache.unblinded.lookup o = some secrets) :
    v'.cache.unblinded.lookup o = some secrets := by
  have hpay := (hopened o secrets h).transfer hinj hv hv' hlisted hpaths
  obtain ⟨secrets', hs'⟩ := mem_iff.1 (hcomplete o secrets hlisted hpay)
  obtain ⟨tx, out, htx, hout, -, hopen⟩ := hpay
  obtain ⟨tx', out', htx', hout', -, hopen'⟩ := hopened' o secrets' hs'
  rw [htx] at htx'
  cases htx'
  rw [hout] at hout'
  cases hout'
  rw [hopen] at hopen'
  cases hopen'
  exact hs'

/-- **Scan completeness.** Through a history of scans no output is left behind exactly when no
scan misses one; and the wallet has unblinded what a new wallet with the same transactions and
scripts does, exactly when it is complete and no transaction it unblinded has left the history. -/
theorem scan_complete_iff (hinj : Set.InjOn env.txid U) (h : Scans env U calls w) :
    ((∀ v ∈ calls.map Prod.fst ++ [w], Complete env v) ↔ ∀ e ∈ calls, NothingMissed env e.1 e.2) ∧
    ∀ f, FreshScan env U w f → (HashMap.Same w.cache.unblinded f.cache.unblinded ↔
        Complete env w ∧ StillListed calls w) := by
  refine ⟨?_, fun f hf => ?_⟩
  · induction h with
    | start disk hdisk =>
      have hcomplete : Complete env (.fresh disk) := fun o _ ho =>
        absurd ho (AList.notMem_empty _)
      simpa using hcomplete
    | @scan calls w w' u server index hprev hserver hscan hU hok ih =>
      obtain ⟨history, hu⟩ := fullScanToIndex_scanUpdate hserver hscan
      have hstep := ScanStep.of_ok hu hok
      have hstates : (∀ v ∈ (calls ++ [(w, u)]).map Prod.fst ++ [w'], Complete env v) ↔
          (∀ v ∈ calls.map Prod.fst ++ [w], Complete env v) ∧ Complete env w' := by
        simp only [map_append, map_cons, map_nil, forall_mem_append, forall_mem_singleton]
      have hcalls : (∀ e ∈ calls ++ [(w, u)], NothingMissed env e.1 e.2) ↔
          (∀ e ∈ calls, NothingMissed env e.1 e.2) ∧ NothingMissed env w u := by
        simp only [forall_mem_append, forall_mem_singleton]
      rw [hstates, hcalls, ← ih]
      refine and_congr_right fun hall => complete_step_iff hstep ?_
      exact hall w (mem_append_right _ (mem_singleton_self w))
  · obtain ⟨hcomplete, hlisted⟩ := hf.exact
    obtain ⟨v, u, hscans⟩ := hf.scanned
    have hw := h.sound hinj
    have hsound := hscans.sound hinj
    have hopened := h.opened hinj
    have hopened' := hscans.opened hinj
    refine ⟨fun hsame => ⟨fun o secrets ho hpay => ?_, fun e he x hx => ?_⟩, fun hkept o => ?_⟩
    · have ho' := (hf.heights _).2 ho
      have hpay' := hpay.transfer hinj hw hsound ho' fun s => (hf.paths s).2
      exact (hsame.mem o).2 (hcomplete o secrets ho' hpay')
    · have hmem := (h.mem_unblinded x.1).2 ⟨e, he, x.2, hx⟩
      exact (hf.heights _).1 (hlisted _ ((hsame.mem _).1 hmem))
    · refine Option.ext fun secrets => ⟨fun hs => ?_, fun hs => ?_⟩
      · obtain ⟨e, he, secrets', hx⟩ := (h.mem_unblinded o).1 (mem_iff.2 ⟨secrets, hs⟩)
        exact hopened.lookup_eq hinj hw hsound hopened' hcomplete
          ((hf.heights _).2 (hkept.2 e he _ hx)) (fun s => (hf.paths s).2) hs
      · have hmem := hlisted o (mem_iff.2 ⟨secrets, hs⟩)
        exact hopened'.lookup_eq hinj hsound hw hopened hkept.1
          ((hf.heights _).1 hmem) (fun s => (hf.paths s).1) hs

end History

/-! ## A script that is derived too late -/

namespace LateScript

def descriptor : WolletDescriptor :=
  ⟨.desc (Concrete.descriptor (Concrete.scripts .external true ([·.toUInt8])) none none), false⟩

def env : Env :=
  { Concrete.env (fun tx => BitVec.ofNat 256 tx.input.length) [] with descriptor := descriptor }

def early : Transaction :=
  ⟨[], [⟨.explicit 1, .explicit 1000, .null, [0], none⟩,
    ⟨.explicit 1, .explicit 2000, .null, [45], none⟩]⟩

def later : Transaction := ⟨[⟨⟨9, 0⟩, .null⟩], [⟨.explicit 1, .explicit 500, .null, [30], none⟩]⟩

def listing (known : Bool) (script : Script) : List History :=
  if script = [0] ∨ script = [45] then [⟨0, 3, none⟩]
  else if known ∧ script = [30] then [⟨1, 5, none⟩] else []

def server (known : Bool) : Backend :=
  Concrete.server env (if known then 5 else 4) [early, later] (listing known)

def first : Update := Concrete.scanned env (server false) (.fresh .empty)

def before : Wollet := Concrete.updated env first (.fresh .empty)

def second : Update := Concrete.scanned env (server true) before

def after : Wollet := Concrete.updated env second before

theorem injOn : Set.InjOn env.txid {early, later} :=
  Set.injOn_pair.2 fun h => absurd h (by decide)

theorem first_facts : Concrete.finds env (server false) (.fresh .empty) = true ∧
    Concrete.succeeds env first (.fresh .empty) = true ∧ first.newTxs.txs = [(0, early)] := by
  decide +kernel

theorem second_facts : Concrete.finds env (server true) before = true ∧
    Concrete.succeeds env second before = true ∧ second.newTxs.txs = [(1, later)] ∧
    after.disk.txs.lookup 0 = some early ∧ (0 : Txid) ∈ after.cache.heights ∧
    [45] ∈ after.cache.paths ∧ ⟨0, 1⟩ ∉ after.cache.unblinded := by
  decide +kernel

theorem scans : Scans env {early, later} [(.fresh .empty, first), (before, second)] after := by
  obtain ⟨hfinds₁, hok₁, htxs₁⟩ := first_facts
  obtain ⟨hfinds₂, hok₂, htxs₂, -⟩ := second_facts
  have hstart : Scans env {early, later} [] (.fresh .empty) :=
    .start .empty fun t tx h => absurd h (by simp [Disk.empty])
  have hfirst : Scans env {early, later} [(.fresh .empty, first)] before := by
    refine hstart.scan (Concrete.server_faithful _ _ _ _)
      (Concrete.fullScanToIndex_scanned hfinds₁) ?_ (Concrete.applyUpdate_updated hok₁)
    simp [htxs₁]
  refine hfirst.scan (Concrete.server_faithful _ _ _ _)
    (Concrete.fullScanToIndex_scanned hfinds₂) ?_ (Concrete.applyUpdate_updated hok₂)
  simp [htxs₂]

/-- The second scan derives the script at 45, but does not look at the first transaction again. -/
theorem output_missed : Scans env {early, later} [(.fresh .empty, first), (before, second)] after ∧
    ¬ Complete env after := by
  obtain ⟨-, -, -, hstored, hlisted, hpath, hmissed⟩ := second_facts
  refine ⟨scans, fun h => hmissed (h ⟨0, 1⟩ ⟨1, .zero, 2000, .zero⟩ hlisted ?_)⟩
  exact ⟨early, _, hstored, rfl, hpath, rfl⟩

/-- The second scan is the one that misses an output. -/
theorem scan_complete_iff_late : ((∀ v ∈ [.fresh .empty, before, after], Complete env v) ↔
      ∀ e ∈ [(.fresh .empty, first), (before, second)], NothingMissed env e.1 e.2) ∧
    ∀ f, FreshScan env {early, later} after f →
      (HashMap.Same after.cache.unblinded f.cache.unblinded ↔
        Complete env after ∧ StillListed [(.fresh .empty, first), (before, second)] after) :=
  scan_complete_iff injOn scans

end LateScript

/-! ## A scan converges -/

section Converges

variable {env : Env} {server : Backend} {view : Script → List History} {w w' : Wollet}
  {index : UInt32} {u : Update}

end Converges

end Swk
