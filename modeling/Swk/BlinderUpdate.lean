import Swk.AddressReuse
import Swk.Backed
import Swk.Failure
import Swk.Restore

/-!
# Persisting the blinder

A transaction that the wallet builds has blinding factors that only the builder knows until the
transaction is on the chain. `BuiltTx::update` puts them into an update that says nothing else, so
that they outlive the session: no transactions, heights or timestamps, the header that stands for
no tip, and no unspent outputs.

For a wallet that keeps a history, an update without transactions leaves the unspent map as it is.
For a wallet in `utxo_only` mode the list of unspent outputs of an update is all there is, so this
one says that nothing is unspent. `blinder_frame_iff` is the exact condition under which the update
changes nothing but `Cache::unblinded`.
-/

namespace Swk

open List

/-! ## The update -/

inductive CtLocationType
  | input
  | issuance
  | token
deriving DecidableEq

/-- `CtLocation`: where a blinding factor belongs. For an output the index is called the index of
an input all the same. -/
structure CtLocation where
  inputIndex : Nat
  ty : CtLocationType
deriving DecidableEq

/-- `BuiltTx`, without the ephemeral keys, which only the blinding nonces need. -/
structure BuiltTx where
  pset : Pset
  blindSecrets : HashMap CtLocation (Tweak × Tweak)

namespace BuiltTx

/-- The outpoint and the opening of one blinded output. -/
def unblindedAt (b : BuiltTx) (txid : Txid) (e : CtLocation × (Tweak × Tweak)) :
    Except Error (OutPoint × TxOutSecrets) := do
  let output ← okOr b.pset.outputs[e.1.inputIndex]? (.generic "Missing output")
  let asset ← okOr output.asset (.generic "Missing asset")
  let value ← okOr output.amount (.generic "Missing amount")
  pure (⟨txid, e.1.inputIndex⟩, ⟨asset, e.2.1, value, e.2.2⟩)

/-- `BuiltTx::unblinded`. `extractTxid` is `extract_tx` followed by `txid`. -/
def unblinded (extractTxid : Pset → Except Error Txid) (b : BuiltTx) :
    Except Error (List (OutPoint × TxOutSecrets)) := do
  let txid ← extractTxid b.pset
  (b.blindSecrets.toPairs.filter fun e => e.1.ty = .input).mapM (b.unblindedAt txid)

end BuiltTx

/-- An update that brings openings of outputs and nothing else. -/
def blinderUpdate (env : Env) (w : Wollet) (unblinds : List (OutPoint × TxOutSecrets)) :
    Update :=
  .bare (w.status env) unblinds defaultBlockheader w.lastUnused

def BuiltTx.update (extractTxid : Pset → Except Error Txid) (env : Env) (b : BuiltTx)
    (w : Wollet) : Except Error Update := do
  let unblinds ← b.unblinded extractTxid
  pure (blinderUpdate env w unblinds)

/-- A transaction is built on a wallet. `blind_last` reports the outputs it has blinded; the
LiquiDEX paths drop what it reports. -/
structure BuiltTx.BuiltOn (x : Builder) (w : Wollet) (t : TxBuilder) (b : BuiltTx) : Prop where
  finished : t.finishInner x w = .ok b.pset
  reported : ∀ loc ∈ b.blindSecrets, loc.ty = .input → loc.inputIndex < b.pset.outputs.length
  liquidex : t.isLiquidexMake = true ∨ t.liquidexProposals ≠ [] → b.blindSecrets = ∅

/-! ## Building it -/

section Unblinded

variable {x : Builder} {w : Wollet} {t : TxBuilder} {b : BuiltTx}

theorem BuiltTx.unblindedAt_ok {txid : Txid} {e : CtLocation × (Tweak × Tweak)} {o : PsetOutput}
    {asset : AssetId} {amount : UInt64} (ho : b.pset.outputs[e.1.inputIndex]? = some o)
    (hasset : o.asset = some asset) (hamount : o.amount = some amount) : b.unblindedAt txid e =
      .ok (⟨txid, e.1.inputIndex⟩, ⟨asset, e.2.1, amount, e.2.2⟩) := by
  simp [unblindedAt, ho, hasset, hamount, okOr, bind, Except.bind, pure, Except.pure]

/-- What `blind_last` has blinded is an output that says what it pays. -/
theorem BuiltTx.BuiltOn.output_explicit (hb : b.BuiltOn x w t) {loc : CtLocation}
    (hloc : loc ∈ b.blindSecrets) (hty : loc.ty = .input) :
    ∃ o asset amount, b.pset.outputs[loc.inputIndex]? = some o ∧ o.asset = some asset ∧
      o.amount = some amount := by
  by_cases hliquidex : t.isLiquidexMake = true ∨ t.liquidexProposals ≠ []
  · rw [hb.liquidex hliquidex] at hloc
    exact absurd hloc (AList.notMem_empty _)
  · obtain ⟨hmake, htake⟩ := not_or.1 hliquidex
    rw [Bool.not_eq_true] at hmake
    rw [not_not] at htake
    obtain ⟨b', hrun⟩ := TxBuilder.finishInner_ok hb.finished
    rw [hmake, htake] at hrun
    obtain ⟨f⟩ := TxBuilder.finishPlain_ok hrun
    have hlt := hb.reported loc hloc hty
    obtain ⟨l, q, houtputs⟩ := f.fee_last
    obtain ⟨asset, amount, hasset, hamount⟩ := outputs_valued houtputs _ (getElem_mem hlt)
    exact ⟨_, asset, amount, getElem?_eq_getElem hlt, hasset, hamount⟩

theorem BuiltTx.BuiltOn.unblinded_ok (hb : b.BuiltOn x w t)
    {extractTxid : Pset → Except Error Txid} {txid : Txid}
    (hextract : extractTxid b.pset = .ok txid) :
    ∃ unblinds, b.unblinded extractTxid = .ok unblinds ∧
      unblinds.length ≤ b.blindSecrets.entries.length := by
  have hall : ∀ e ∈ b.blindSecrets.toPairs.filter fun e => e.1.ty = .input,
      ∃ r, b.unblindedAt txid e = .ok r := by
    intro e he
    obtain ⟨hmem, hty⟩ := mem_filter.1 he
    have hloc : e.1 ∈ b.blindSecrets := HashMap.mem_iff.2 ⟨_, HashMap.mem_toPairs.1 hmem⟩
    obtain ⟨o, asset, amount, ho, hasset, hamount⟩ :=
      hb.output_explicit hloc (of_decide_eq_true hty)
    exact ⟨_, unblindedAt_ok ho hasset hamount⟩
  obtain ⟨unblinds, hunblinds⟩ := mapM_ok_of_forall hall
  refine ⟨unblinds, ?_, ?_⟩
  · rw [unblinded, hextract]
    exact hunblinds
  · rw [← (mapM_ok_forall₂ hunblinds).length_eq]
    refine (length_filter_le _ _).trans ?_
    rw [HashMap.toPairs, length_map]

end Unblinded

/-! ## What it does to the cache -/

/-- A wallet that was built on some stores, some calls later, whether they went through or not.
`apply_transaction` applies an update too, which it computes itself. -/
inductive Reached (env : Env) : Wollet → Prop
  | built {d : Disk} {w : Wollet} (h : build env d = .ok () w) : Reached env w
  | update {w w' : Wollet} {u : Update} (h : Reached env w)
      (hok : applyUpdate env u w = .ok () w') : Reached env w'
  | failed {w w' : Wollet} {u : Update} {e : Error} (h : Reached env w)
      (herror : applyUpdate env u w = .error e w') : Reached env w'

section Ordered

variable {env : Env} {u : Update} {w w' : Wollet} {e : Error}

theorem applied_ordered (c : Cache) (scripts : List ScriptEntry) (store : TxsStore) :
    (c.applied env u scripts store).Ordered := by
  rw [Cache.Ordered, applied_sortedTxids, applied_heights]

theorem applyUpdateInner_ordered (h : applyUpdateInner env u w = .ok () w') : w'.cache.Ordered := by
  obtain ⟨scripts, -, rfl⟩ := applyUpdateInner_ok h
  exact applied_ordered _ _ _

theorem applyUpdate_error_ordered (hw : w.cache.Ordered)
    (h : applyUpdate env u w = .error e w') : w'.cache.Ordered := by
  rcases bind_error_iff.1 h with hinner | ⟨_, w₁, hinner, hpersist⟩
  · rcases applyUpdateInner_error hinner with rfl | ⟨scripts, -, hextend⟩
    · exact hw
    · have hkept := (extendAllTxs_preserves _).error hextend
      simp only [Wollet.untouched, Prod.mk.injEq] at hkept
      rw [Cache.Ordered, hkept.1, hkept.2.1]
      exact hw
  · have hcache : w'.cache = w₁.cache := congrArg Prod.fst ((persist_preserves u).error hpersist)
    rw [hcache]
    exact applyUpdateInner_ordered hinner

theorem restoreLoop_ordered (fuel i : Nat) :
    Maintains (fun w => w.cache.Ordered) (restoreLoop env fuel i) := by
  induction fuel generalizing i with
  | zero => exact .throw _
  | succ fuel ih =>
    refine .bind .get fun w => .bind (.liftExcept _) fun r => ?_
    cases r with
    | some u =>
      refine .bind ?_ fun _ => ih (i + 1)
      intro w _ w' hok _
      exact applyUpdateInner_ordered hok
    | none =>
      refine .bind ?_ fun next => .modify fun _ hs => hs
      intro w next w' hok hs
      have hcache : w'.cache = w.cache := congrArg Prod.fst ((mergeUpdates_preserves i).ok hok)
      rw [hcache]
      exact hs

theorem build_ordered {d : Disk} (h : build env d = .ok () w) : w.cache.Ordered := by
  have hrun : Maintains (fun w => w.cache.Ordered) (restoreUpdates env) :=
    .bind .get fun w => restoreLoop_ordered _ 0
  obtain ⟨-, h⟩ := ensureElse_bind_ok_iff.1 h
  obtain ⟨_, w₂, hrestore, h⟩ := bind_ok_iff.1 h
  have hordered : w₂.cache.Ordered := hrun (.fresh d) _ w₂ hrestore rfl
  rw [← modify_ok_iff.1 h]
  exact hordered

/-- **The list of transactions is in order** whatever was called. -/
theorem Reached.ordered (h : Reached env w) : w.cache.Ordered := by
  induction h with
  | built h => exact build_ordered h
  | update _ hok _ =>
    obtain ⟨scripts, -, hcache, -⟩ := applyUpdate_ok hok
    rw [hcache]
    exact applied_ordered _ _ _
  | failed _ herror ih => exact applyUpdate_error_ordered ih herror

end Ordered

section Frame

variable {env : Env} {w : Wollet} (unblinds : List (OutPoint × TxOutSecrets))

theorem blinderUpdate_accepted :
    Accepts env (blinderUpdate env w unblinds) w.cache [] :=
  ⟨.inr rfl, rfl, .inl rfl⟩

variable (env) in
/-- **The cache afterwards** has the openings, and in `utxo_only` mode no unspent outputs. -/
theorem applied_blinderUpdate (h : w.cache.Ordered) (store : TxsStore) :
    (w.cache.applied env (blinderUpdate env w unblinds) [] store).Same
      { w.cache with
        unblinded := w.cache.unblinded.extend unblinds
        unspent := if env.utxoOnly then ∅ else w.cache.unspent } := by
  -- with the openings in the cache first, the update only moves the tip
  let c : Cache := { w.cache with unblinded := w.cache.unblinded.extend unblinds }
  have hstep : w.cache.applied env (blinderUpdate env w unblinds) [] store =
      c.applied env (blinderUpdate env w []) [] store := rfl
  rw [hstep]
  refine (applied_onlyTip rfl c store).trans ⟨rfl, .refl _, .refl _, .refl _, h.symm, .refl _,
    .refl _, ?_, .refl _, ?_, ?_⟩
  · simp [Cache.tipped, blinderUpdate, Update.bare, c]
  · exact max_self_u32 _
  · exact max_self_u32 _

theorem applied_blinderUpdate_same_iff (h : w.cache.Ordered) (store : TxsStore) :
    (w.cache.applied env (blinderUpdate env w unblinds) [] store).Same
        { w.cache with unblinded := w.cache.unblinded.extend unblinds } ↔
      (env.utxoOnly = true → ∀ o, o ∉ w.cache.unspent) := by
  have happlied := applied_blinderUpdate env unblinds h store
  constructor
  · intro hsame hutxo o ho
    have hunspent := (happlied.symm.trans hsame).unspent
    rw [hutxo, if_pos rfl] at hunspent
    exact AList.notMem_empty _ ((hunspent.mem o).2 ho)
  · intro hempty
    refine happlied.trans ⟨rfl, .refl _, .refl _, .refl _, rfl, ?_, .refl _, rfl, .refl _, rfl, rfl⟩
    cases hutxo : env.utxoOnly with
    | false => exact .refl _
    | true =>
      intro o
      have hnone : w.cache.unspent.lookup o = none := AList.lookup_eq_none.2 (hempty hutxo o)
      simp [hnone]

end Frame

/-! ## Persisting it -/

/-- A store keeps what it is given: an update that was persisted can be read. -/
def UpdatesKept (env : Env) (w : Wollet) : Prop :=
  ∀ i < w.nextUpdateIndex, ∃ u, getUpdate env w i = .ok (some u)

section Persist

variable {env : Env} {w : Wollet} {u : Update}

theorem removeDown_runs (hworks : ∀ n, env.storeFails n = false) (n : Nat) (w : Wollet) :
    ∃ w', removeDown env n w = .ok () w' := by
  induction n generalizing w with
  | zero => exact ⟨w, rfl⟩
  | succ n ih =>
    obtain ⟨w₁, hremove⟩ := attemptUpdate_runs hworks (.removeUpdate (updateKey n)) w
    obtain ⟨w₂, hrest⟩ := ih w₁
    exact ⟨w₂, bind_ok_iff.2 ⟨(), w₁, hremove, hrest⟩⟩

theorem persist_runs (hworks : ∀ n, env.storeFails n = false)
    (hfake : env.fakeUpdatesStore = false) (hkept : UpdatesKept env w)
    (hu : ∃ u', Update.deserialize env.codecs ((u.cleared env).serialize env.codecs) = .ok u') :
    ∃ w', persist env u w = .ok () w' := by
  by_cases hdue : MergeDue env w u
  case neg => exact persist_succeeds hworks hdue
  obtain ⟨u', hu⟩ := hu
  have hkept' : UpdatesKept env (w.stored env u) := by
    intro i hi
    rw [getUpdate_insert (w := w) hfake hu rfl]
    by_cases hlast : i = w.nextUpdateIndex
    · rw [if_pos hlast]
      exact ⟨_, rfl⟩
    · rw [if_neg hlast]
      exact hkept i (Nat.lt_of_le_of_ne (Nat.le_of_lt_succ hi) hlast)
  obtain ⟨merged, hread⟩ := readMerged_ok_iff.2 hkept'
  obtain ⟨w₁, hremove⟩ := removeDown_runs hworks (w.nextUpdateIndex + 1) (w.stored env u)
  obtain ⟨w₂, hset⟩ := attemptUpdate_runs hworks
    (.putUpdate (updateKey 0) (merged.serialize env.codecs)) w₁
  rw [persist_due hfake (hworks _) hdue]
  refine ⟨_, bind_ok_iff.2 ⟨1, w₂, liftExcept_bind_ok_iff.2 ⟨merged, hread, ?_⟩, rfl⟩⟩
  exact bind_ok_iff.2 ⟨(), w₁, hremove, bind_ok_iff.2 ⟨(), w₂, hset, rfl⟩⟩

theorem persist_fake_runs (hfake : env.fakeUpdatesStore = true) :
    (∃ w', persist env u w = .ok () w') ↔
      ∀ threshold, env.mergeThreshold = some threshold → w.nextUpdateIndex < threshold := by
  constructor
  · rintro ⟨w', h⟩ threshold hthreshold
    by_contra hlt
    rw [persist_fake hfake ⟨threshold, hthreshold, by omega⟩] at h
    cases h
  · intro h
    have hidle : ¬ MergeDue env w u := by
      rintro ⟨-, threshold, hthreshold, hlt⟩
      have := h threshold hthreshold
      omega
    cases hpersist : persist env u w with
    | ok _ w' => exact ⟨w', rfl⟩
    | error e w' => exact absurd (persist_error hidle hpersist).1 (by simp [hfake])

theorem cleared_blinderUpdate (unblinds : List (OutPoint × TxOutSecrets)) :
    (blinderUpdate env w unblinds).cleared env = blinderUpdate env w unblinds := by
  unfold Update.cleared
  split <;> rfl

/-- An index past `u32` is written modulo its size, so the update is read back anyway. -/
theorem blinderUpdate_readable (unblinds : List (OutPoint × TxOutSecrets))
    (hlength : unblinds.length < 2 ^ 64) : ∃ u', Update.deserialize env.codecs
      ((blinderUpdate env w unblinds).serialize env.codecs) = .ok u' := by
  let wrap (e : OutPoint × TxOutSecrets) : OutPoint × TxOutSecrets :=
    (⟨e.1.txid, e.1.vout % 2 ^ 32⟩, e.2)
  have hwrap (e : OutPoint × TxOutSecrets) : emitUnblind (wrap e) = emitUnblind e := by
    have hvout : UInt32.ofNat (e.1.vout % 2 ^ 32) = UInt32.ofNat e.1.vout := UInt32.ofNat_mod_size
    simp only [wrap, emitUnblind, emitOutPoint, hvout]
  have hbytes : (blinderUpdate env w (unblinds.map wrap)).serialize env.codecs =
      (blinderUpdate env w unblinds).serialize env.codecs := by
    simp only [Update.serialize, blinderUpdate, Update.bare, emitDownloadTxResult, emitList,
      flatMap_map, length_map, hwrap]
  rw [← hbytes]
  refine ⟨_, deserialize_serialize _ (storable_bare _ ?_ ?_ env.codecs.takes_default)⟩
  · rwa [length_map]
  · intro e he
    obtain ⟨e', -, rfl⟩ := mem_map.1 he
    exact Nat.mod_lt _ (Nat.two_pow_pos 32)

end Persist

/-! ## The frame condition -/

/-- The update of a built transaction can be computed and applied, and all that it changes is that
the cache has the openings of the outputs too. -/
def BuiltTx.FramesUpdate (extractTxid : Pset → Except Error Txid) (env : Env) (b : BuiltTx)
    (w : Wollet) : Prop :=
  ∃ unblinds u w', b.unblinded extractTxid = .ok unblinds ∧
    b.update extractTxid env w = .ok u ∧ applyUpdate env u w = .ok () w' ∧
    w'.cache.Same { w.cache with unblinded := w.cache.unblinded.extend unblinds }

theorem BuiltTx.framesUpdate_iff {extractTxid : Pset → Except Error Txid} {env : Env}
    {b : BuiltTx} {w : Wollet} {unblinds : List (OutPoint × TxOutSecrets)}
    (hordered : w.cache.Ordered) (hunblinded : b.unblinded extractTxid = .ok unblinds) :
    b.FramesUpdate extractTxid env w ↔ (env.utxoOnly = true → ∀ o, o ∉ w.cache.unspent) ∧
      ∃ w', persist env (blinderUpdate env w unblinds)
        (w.applied env (blinderUpdate env w unblinds) []) = .ok () w' := by
  have hupdate : b.update extractTxid env w = .ok (blinderUpdate env w unblinds) := by
    rw [update, hunblinded]
    rfl
  have hinner : applyUpdateInner env (blinderUpdate env w unblinds) w =
      .ok () (w.applied env (blinderUpdate env w unblinds) []) := by
    refine applyUpdateInner_eq (fun n hle hlt => ?_) (blinderUpdate_accepted unblinds)
    exact absurd hlt (Nat.not_lt.2 hle)
  rw [← applied_blinderUpdate_same_iff unblinds hordered (w.disk.txs.extend [])]
  constructor
  · intro h
    obtain ⟨unblinds', u, w', hunblinded', hupdate', happly, hsame⟩ := h
    obtain rfl : unblinds = unblinds' := Except.ok.inj (hunblinded.symm.trans hunblinded')
    obtain rfl : blinderUpdate env w unblinds = u := Except.ok.inj (hupdate.symm.trans hupdate')
    obtain ⟨_, w₁, hfirst, hpersist⟩ := bind_ok_iff.1 happly
    rw [hinner] at hfirst
    cases hfirst
    rw [(persist_framed hpersist).cache] at hsame
    exact ⟨hsame, w', hpersist⟩
  · intro h
    obtain ⟨hsame, w', hpersist⟩ := h
    refine ⟨unblinds, _, w', hunblinded, hupdate, bind_ok_iff.2 ⟨(), _, hinner, hpersist⟩, ?_⟩
    rw [(persist_framed hpersist).cache]
    exact hsame

/-- **Persisting the blinder changes no funds** exactly if the wallet is not in `utxo_only` mode or
has no unspent outputs anyway; and where updates go to a `FakeStore`, no merge must be due, as
there is nothing to merge. -/
theorem blinder_frame_iff {x : Builder} {w : Wollet} {t : TxBuilder} {b : BuiltTx}
    {extractTxid : Pset → Except Error Txid} {txid : Txid} (hreached : Reached x.env w)
    (hworks : ∀ n, x.env.storeFails n = false)
    (hkept : x.env.fakeUpdatesStore = false → UpdatesKept x.env w)
    (hbuilt : b.BuiltOn x w t) (hextract : extractTxid b.pset = .ok txid)
    (hlength : b.blindSecrets.entries.length < 2 ^ 64) : b.FramesUpdate extractTxid x.env w ↔
      (x.env.utxoOnly = true → ∀ o, o ∉ w.cache.unspent) ∧
      (x.env.fakeUpdatesStore = true →
        ∀ threshold, x.env.mergeThreshold = some threshold → w.nextUpdateIndex < threshold) := by
  obtain ⟨unblinds, hunblinded, hle⟩ := hbuilt.unblinded_ok hextract
  rw [BuiltTx.framesUpdate_iff hreached.ordered hunblinded]
  refine and_congr_right fun _ => ?_
  cases hfake : x.env.fakeUpdatesStore with
  | true =>
    rw [persist_fake_runs hfake]
    exact ⟨fun h _ => h, fun h => h rfl⟩
  | false =>
    refine ⟨fun _ h => absurd h (by decide), fun _ => ?_⟩
    refine persist_runs hworks hfake (hkept hfake) ?_
    rw [cleared_blinderUpdate]
    exact blinderUpdate_readable unblinds (hle.trans_lt hlength)

/-! ## A wallet that forgets its coin -/

namespace UtxoOnly

def coin : TxOutSecrets := ⟨1, ⟨21, by decide⟩, 100000, ⟨22, by decide⟩⟩

def funding : Transaction :=
  ⟨[], [⟨.confidential 1, .confidential 1, .confidential ⟨false, 1⟩, Concrete.script 0, none⟩]⟩

def env : Env :=
  { Concrete.env (fun _ => 12) [] with
    secp := ⟨fun key => ⟨false, key⟩, fun _ _ => some coin⟩
    descriptor := ⟨.spks [⟨some 1, Concrete.script 0⟩], false⟩
    utxoOnly := true }

def x : Builder := Concrete.builder env

def scan : Update :=
  { blinderUpdate env (.fresh .empty) [(⟨12, 0⟩, coin)] with
    newTxs := ⟨[(12, funding)], [(⟨12, 0⟩, coin)]⟩
    txidHeightNew := [(12, some 3)]
    scriptsWithBlindingPubkey := [(.external, .normal 0, Concrete.script 0, some ⟨false, 1⟩)]
    tip := Concrete.header 4
    unspent := [⟨12, 0⟩] }

def wallet : Wollet := Concrete.updated env scan (.fresh .empty)

def tx : TxBuilder := { TxBuilder.new 1 with recipients := [⟨20000, [8], some ⟨false, 5⟩, 1⟩] }

def built : BuiltTx where
  pset := Concrete.finished x wallet tx
  blindSecrets := HashMap.ofPairs [(⟨0, .input⟩, (⟨23, by decide⟩, ⟨24, by decide⟩))]

def extractTxid (_ : Pset) : Except Error Txid := .ok 13

theorem reached : Reached env wallet :=
  .update (.built (d := .empty) rfl) (Concrete.applyUpdate_updated (by decide))

theorem finishes : Concrete.finishes x wallet tx = true := by decide

theorem builtOn : built.BuiltOn x wallet tx where
  finished := Concrete.finishInner_finished finishes
  reported := by decide
  liquidex h := by
    rcases h with h | h
    · cases h
    · exact absurd rfl h

def blinder : Update :=
  blinderUpdate env wallet [(⟨13, 0⟩, ⟨1, ⟨23, by decide⟩, 20000, ⟨24, by decide⟩⟩)]

/-- The coin of the wallet is gone before the payment is even signed. -/
theorem blinder_forgets_coin : Reached env wallet ∧ built.BuiltOn x wallet tx ∧
    ⟨12, 0⟩ ∈ wallet.cache.unspent ∧ built.update extractTxid env wallet = .ok blinder ∧
    ∃ w', applyUpdate env blinder wallet = .ok () w' ∧ ∀ o, o ∉ w'.cache.unspent := by
  refine ⟨reached, builtOn, by decide, rfl, _, Concrete.applyUpdate_updated (by decide), ?_⟩
  have hempty : (Concrete.updated env blinder wallet).cache.unspent = ∅ := rfl
  rw [hempty]
  exact fun o => AList.notMem_empty o

theorem blinder_frame_iff_utxoOnly : built.FramesUpdate extractTxid env wallet ↔
    (env.utxoOnly = true → ∀ o, o ∉ wallet.cache.unspent) ∧ (env.fakeUpdatesStore = true →
        ∀ threshold, env.mergeThreshold = some threshold → wallet.nextUpdateIndex < threshold) :=
  blinder_frame_iff (x := x) reached (fun _ => rfl) (fun h => absurd h (by decide)) builtOn
    (show extractTxid built.pset = .ok 13 from rfl) (by decide)

end UtxoOnly

end Swk
