import Swk.AppEntries

/-!
# Loading a state file

Starting the server handles the lines of its file on a new state (`run`). Since nothing is written
meanwhile, that comes down to applying the outcomes of the lines one after the other (`replay`,
`run_ok_iff`).

A file that `as_requests` wrote has a section for each kind of entry. Wallets and signers load in
any order, because the state they come from had no two with the same key (`Distinct`); memos load
after the wallets they belong to; assets load whatever else is there. So the only thing that can go
wrong is the assets: which of them are accepted, and which map they give, is worked out in
`replay_asRequests_iff`.
-/

namespace Swk.App

open HashMap List

open Registry (RegistryAssetData)

/-! ## Replaying lines -/

/-- The requests that add something by themselves: no emulator, nothing that is not to be saved. -/
def Params.Adds : Params → Prop
  | .walletLoad _ _ | .signerLoadExternal _ _ | .walletSetTxMemo _ _ _ | .walletSetAddrMemo _ _ _
  | .assetInsert _ _ _ => True
  | .signerLoadSoftware _ _ keep => keep = true
  | .signerLoadJade _ _ emulator => emulator = none
  | .walletUnload _ | .signerUnload _ | .assetRemove _ | .assetFromRegistry _ => False

/-- The outcomes of a list of lines, one after the other. -/
def replay (lib : Library) (w : World) (lines : List Request) (s : State) : Except Error State :=
  lines.foldlM (fun s line => (outcome lib w s line).map fun o => o.1.on s) s

section Replay

variable {lib : Library} {w : World} {s t : State} {srv srv' : Server} {r : Request} {e : Effect}
  {write : Write}

theorem replay_nil : replay lib w [] s = .ok s := rfl

theorem replay_append (l l' : List Request) :
    replay lib w (l ++ l') s = replay lib w l s >>= replay lib w l' := foldlM_append

theorem replay_cons_ok_iff {line : Request} {lines : List Request} :
    replay lib w (line :: lines) s = .ok t ↔
      ∃ o, outcome lib w s line = .ok o ∧ replay lib w lines (o.1.on s) = .ok t := by
  rw [replay, foldlM_cons, except_bind_ok_iff]
  simp only [map_ok_iff]
  constructor
  · rintro ⟨s', ⟨o, ho, rfl⟩, h⟩
    exact ⟨o, ho, h⟩
  · rintro ⟨o, ho, h⟩
    exact ⟨_, ⟨o, ho, rfl⟩, h⟩

theorem replay_effects {α : Type} {line : α → Request} {effect : α → Effect} {l : List α}
    (h : ∀ l₁ a l₂, l = l₁ ++ a :: l₂ → ∃ write,
      outcome lib w (l₁.foldl (fun s a => (effect a).on s) s) (line a) = .ok (effect a, write)) :
    replay lib w (l.map line) s = .ok (l.foldl (fun s a => (effect a).on s) s) := by
  induction l generalizing s with
  | nil => rfl
  | cons a l ih =>
    obtain ⟨write, ho⟩ := h [] a l rfl
    refine replay_cons_ok_iff.2 ⟨_, ho, ih fun l₁ a' l₂ hl => ?_⟩
    exact h (a :: l₁) a' l₂ (by rw [hl, cons_append])

theorem outcome_adds (hr : r.params.Adds) (ho : outcome lib w s r = .ok (e, write)) :
    write = .append r := by
  cases outcome_of_ok ho with
  | walletLoad hopen hfits => rfl
  | signerLoadSoftware hnew hfits => rfl
  | signerNotKept hnew hfits => cases hr
  | signerLoadJade hid hnew hfits => rfl
  | signerLoadExternal hprint hfits => rfl
  | walletSetTxMemo hd htxid => rfl
  | walletSetAddrMemo hd haddress => rfl
  | assetInsert hd => rfl
  | _ => exact False.elim hr

theorem Effect.on_doPersist (e : Effect) (s : State) : (e.on s).doPersist = s.doPersist := by
  cases e <;> rfl

theorem Effect.on_config (e : Effect) (s : State) : (e.on s).config = s.config := by
  cases e <;> rfl

theorem applyRequest_ok_iff {n : Nat} (hoff : srv.state.doPersist = false)
    (hlock : srv.poisoned = false) (hr : r.params.Adds) : applyRequest lib w srv (r, n) = .ok srv' ↔
      ∃ o, outcome lib w srv.state r = .ok o ∧ srv' = { srv with state := o.1.on srv.state } := by
  cases ho : outcome lib w srv.state r with
  | error err =>
    rw [applyRequest, handler_error hlock ho]
    simp
  | ok o =>
    obtain ⟨e, write⟩ := o
    cases outcome_adds hr ho
    obtain ⟨response, h⟩ := handler_ok hlock ho
    rw [applyRequest, h]
    simp [Server.after, hoff, eq_comm]

theorem applyRequests_ok_iff {lines : List Request} {n : Nat} (hoff : srv.state.doPersist = false)
    (hlock : srv.poisoned = false) (hadds : ∀ line ∈ lines, line.params.Adds) :
    (lines.zipIdx n).foldlM (applyRequest lib w) srv = .ok srv' ↔
      ∃ t, replay lib w lines srv.state = .ok t ∧ srv' = { srv with state := t } := by
  induction lines generalizing srv n with
  | nil =>
    constructor
    · intro h
      cases h
      exact ⟨_, rfl, rfl⟩
    · rintro ⟨t, h, rfl⟩
      cases h
      rfl
  | cons line lines ih =>
    obtain ⟨hline, hlines⟩ := forall_mem_cons.1 hadds
    rw [zipIdx_cons, foldlM_cons, except_bind_ok_iff]
    simp only [applyRequest_ok_iff hoff hlock hline, replay_cons_ok_iff]
    constructor
    · rintro ⟨srv₁, ⟨o, ho, rfl⟩, h⟩
      have hoff' := (Effect.on_doPersist o.1 srv.state).trans hoff
      obtain ⟨t, ht, rfl⟩ := (ih (by exact hoff') (by exact hlock) hlines).1 h
      exact ⟨t, ⟨o, ho, ht⟩, rfl⟩
    · rintro ⟨t, ⟨o, ho, ht⟩, rfl⟩
      have hoff' := (Effect.on_doPersist o.1 srv.state).trans hoff
      exact ⟨_, ⟨o, ho, rfl⟩, (ih (by exact hoff') (by exact hlock) hlines).2 ⟨t, ht, rfl⟩⟩

/-- **Starting the server is replaying its file.** -/
theorem run_ok_iff {config : Config} {file : List Request}
    (hadds : ∀ line ∈ file, line.params.Adds) : run lib w config file = .ok srv ↔
      ∃ t, replay lib w file (.new config) = .ok t ∧
        srv = ⟨{ t with doPersist := true }, file, false⟩ := by
  have hlines (srv₁ : Server) :
      file.zipIdx.foldlM (applyRequest lib w) ⟨.new config, file, false⟩ = .ok srv₁ ↔
        ∃ t, replay lib w file (.new config) = .ok t ∧ srv₁ = ⟨t, file, false⟩ :=
    applyRequests_ok_iff rfl rfl hadds
  rw [run, except_bind_ok_iff]
  simp only [hlines]
  constructor
  · rintro ⟨srv₁, ⟨t, ht, rfl⟩, h⟩
    cases h
    exact ⟨t, ht, rfl⟩
  · rintro ⟨t, ht, rfl⟩
    exact ⟨_, ⟨t, ht, rfl⟩, rfl⟩

end Replay

/-! ## Entries that reload -/

/-- The texts the library writes are read back. -/
structure Library.RoundTrips (lib : Library) : Prop where
  descriptor : lib.descriptor.RoundTrips
  mnemonic : lib.mnemonic.RoundTrips
  fingerprint : lib.fingerprint.RoundTrips
  xkeyIdentifier : lib.xkeyIdentifier.RoundTrips
  txid : lib.txid.RoundTrips
  address : lib.address.RoundTrips
  assetId : lib.assetId.RoundTrips
  transaction : lib.transaction.RoundTrips
  /-- The JSON text of the fields that were read from some JSON text. -/
  contract : ∀ s v f, lib.hashing.jsonFromStr s = some v →
    Registry.ContractFields.fromValue v = some f →
    lib.hashing.jsonFromStr (lib.hashing.jsonToString f.toValue) = some f.toValue

/-- The text of a signer gives that signer. A connected Jade is not restored: its text has no
emulator. -/
def AppSigner.Reloads (lib : Library) (config : Config) (s : AppSigner) : Prop :=
  match s.inner with
  | .availableSigner (.software sw) =>
    AppSigner.newSw lib (lib.mnemonic.toStr sw.mnemonic) config.isMainnet true = .ok s
  | .jadeId id =>
    lib.xkeyIdentifier.fromStr (lib.xkeyIdentifier.toStr id) = .ok id ∧ s.persist = true
  | .externalSigner f =>
    lib.fingerprint.fromStr (lib.fingerprint.toStr f) = .ok f ∧ s.persist = false
  | .availableSigner (.jade _) => False

/-- The texts in the request of an entry give the values of the entry; of a contract, its fields. -/
def Entry.Reloads (lib : Library) (config : Config) : Entry → Prop
  | .wollet _ d => openWollet lib config (lib.descriptor.toStr d) = .ok d
  | .txMemo _ txid _ => lib.txid.fromStr (lib.txid.toStr txid) = .ok txid
  | .addrMemo _ address _ => lib.address.fromStr (lib.address.toStr address) = .ok address
  | .signer _ s => s.Reloads lib config
  | .asset d =>
    lib.assetId.fromStr (lib.assetId.toStr d.assetId) = .ok d.assetId ∧
    lib.transaction.fromStr (lib.transaction.toStr d.issuanceTx) = .ok d.issuanceTx ∧
    contractFromStr lib (d.contract.contractStr lib.hashing) = .ok d.contract.canonical ∧
    RegistryAssetData.new lib.hashing d.assetId d.issuanceTx d.contract = .ok d

section Reloads

variable {lib : Library} {config : Config} {w : World} {s : State} {r : Request} {e : Effect}
  {write : Write} {entry : Entry}

theorem openWollet_reloads {descriptor : String} {d : WolletDescriptor} (hlib : lib.RoundTrips)
    (h : openWollet lib config descriptor = .ok d) :
    openWollet lib config (lib.descriptor.toStr d) = .ok d := by
  obtain ⟨d', hparse, h⟩ := except_bind_ok_iff.1 h
  obtain ⟨u, hnetwork, h⟩ := except_bind_ok_iff.1 h
  obtain ⟨u', hbuild, h⟩ := except_bind_ok_iff.1 h
  cases h
  have hagain := hlib.descriptor _ _ (mapError_ok_iff.1 hparse)
  exact except_bind_ok_iff.2 ⟨d, mapError_ok_iff.2 hagain,
    except_bind_ok_iff.2 ⟨u, hnetwork, except_bind_ok_iff.2 ⟨u', hbuild, rfl⟩⟩⟩

theorem newSw_reloads {mnemonic : String} {signer : AppSigner} (hlib : lib.RoundTrips)
    (h : AppSigner.newSw lib mnemonic config.isMainnet true = .ok signer) :
    signer.Reloads lib config := by
  obtain ⟨m, hm, h⟩ := except_bind_ok_iff.1 h
  obtain ⟨xprv, hxprv, h⟩ := except_bind_ok_iff.1 h
  cases h
  have hagain := hlib.mnemonic _ _ (mapError_ok_iff.1 hm)
  exact except_bind_ok_iff.2 ⟨m, mapError_ok_iff.2 hagain, except_bind_ok_iff.2 ⟨xprv, hxprv, rfl⟩⟩

variable {contract : String} {c : Registry.Contract} {id : AssetId} {d : RegistryAssetData}

theorem contractFromStr_reloads (hlib : lib.RoundTrips) (h : contractFromStr lib contract = .ok c) :
    contractFromStr lib (c.contractStr lib.hashing) = .ok c.canonical := by
  obtain ⟨v, hv, h⟩ := except_bind_ok_iff.1 h
  obtain ⟨f, hf, h⟩ := except_bind_ok_iff.1 (mapError_ok_iff.1 h)
  cases h
  have hagain := hlib.contract contract v f (okOr_ok_iff.1 hv) (okOr_ok_iff.1 hf)
  exact except_bind_ok_iff.2 ⟨f.toValue, okOr_ok_iff.2 hagain,
    mapError_ok_iff.2 (Registry.Contract.fromValue_toValue ⟨f, some v⟩)⟩

theorem asset_reloads {assetId issuanceTx : String} {tx : Transaction} (hlib : lib.RoundTrips)
    (hid : lib.assetId.fromStr assetId = .ok id) (htx : lib.transaction.fromStr issuanceTx = .ok tx)
    (hc : contractFromStr lib contract = .ok c)
    (hd : RegistryAssetData.new lib.hashing id tx c = .ok d) :
    (Entry.asset d).Reloads lib config := by
  obtain ⟨rfl, rfl, rfl⟩ := RegistryAssetData.new_ok hd
  exact ⟨hlib.assetId _ _ hid, hlib.transaction _ _ htx, contractFromStr_reloads hlib hc, hd⟩

/-- The requests of these runs: no emulator, no signer that is not to be saved. -/
def Params.Plain : Params → Prop
  | .signerLoadSoftware _ _ keep => keep = true
  | .signerLoadJade _ _ emulator => emulator = none
  | _ => True

theorem fetchData_reloads {assetId : String} (hlib : lib.RoundTrips)
    (hid : lib.assetId.fromStr assetId = .ok id) (hd : fetchData lib w id = .ok d) :
    (Entry.asset d).Reloads lib config := by
  obtain ⟨fetched, -, hd⟩ := except_bind_ok_iff.1 hd
  obtain ⟨c, hc, hd⟩ := except_bind_ok_iff.1 hd
  obtain ⟨tx, htx, hd⟩ := except_bind_ok_iff.1 hd
  exact asset_reloads hlib hid (mapError_ok_iff.1 htx) hc (mapError_ok_iff.1 hd)

/-- **What a request adds, reloads.** -/
theorem outcome_reloads (hlib : lib.RoundTrips) (hconfig : s.config = config)
    (hr : r.params.Plain) (ho : outcome lib w s r = .ok (e, write)) (hadds : e.adds = some entry) :
    entry.Reloads lib config := by
  subst hconfig
  cases outcome_of_ok ho with
  | walletLoad hopen hfits =>
    cases hadds
    exact openWollet_reloads hlib hopen
  | signerLoadSoftware hnew hfits =>
    cases hadds
    exact newSw_reloads hlib hnew
  | signerNotKept hnew hfits => cases hr
  | signerLoadJade hid hnew hfits =>
    cases hr
    cases hnew
    cases hadds
    exact ⟨hlib.xkeyIdentifier _ _ hid, rfl⟩
  | signerLoadExternal hprint hfits =>
    cases hadds
    exact ⟨hlib.fingerprint _ _ hprint, rfl⟩
  | walletSetTxMemo hd htxid =>
    cases hadds
    exact hlib.txid _ _ htxid
  | walletSetAddrMemo hd haddress =>
    cases hadds
    exact hlib.address _ _ haddress
  | assetInsert hd =>
    cases hadds
    obtain ⟨id, hid, hd⟩ := except_bind_ok_iff.1 hd
    obtain ⟨tx, htx, hd⟩ := except_bind_ok_iff.1 hd
    obtain ⟨c, hc, hd⟩ := except_bind_ok_iff.1 hd
    exact asset_reloads hlib (mapError_ok_iff.1 hid) (mapError_ok_iff.1 htx) hc
      (mapError_ok_iff.1 hd)
  | assetFromRegistry hid hnew hd hne =>
    cases hadds
    exact fetchData_reloads hlib hid hd
  | assetCollides hid hnew hd heq =>
    cases hadds
    exact fetchData_reloads hlib hid hd
  | _ => cases hadds

end Reloads

/-! ## Maps whose keys are distinct -/

section Distinct

variable {K V : Type} [DecidableEq K] {key : V → Except Error K} {m m' : HashMap String V}
  {name : String} {v : V}

/-- Every value has a key, and no other value has it too. -/
def Distinct (key : V → Except Error K) (m : HashMap String V) : Prop :=
  ∀ n v, m.lookup n = some v → ∃ k, key v = .ok k ∧
    ∀ n' v', m.lookup n' = some v' → n' ≠ n → ∃ k', key v' = .ok k' ∧ k' ≠ k

omit [DecidableEq K] in
theorem Distinct.same (h : Distinct key m) (hs : HashMap.Same m m') : Distinct key m' := by
  intro n v hv
  obtain ⟨k, hk, hothers⟩ := h n v ((hs n).trans hv)
  exact ⟨k, hk, fun n' v' hv' => hothers n' v' ((hs n').trans hv')⟩

omit [DecidableEq K] in
theorem Distinct.erase (h : Distinct key m) : Distinct key (AList.erase name m) := by
  intro n v hv
  obtain ⟨k, hk, hothers⟩ := h n v (lookup_of_erase hv).2
  exact ⟨k, hk, fun n' v' hv' => hothers n' v' (lookup_of_erase hv').2⟩

omit [DecidableEq K] in
theorem Distinct.insert (h : Distinct key m) (hfits : Fits key m name v) :
    Distinct key (AList.insert name v m) := by
  obtain ⟨k, hk, hothers⟩ := hfits.key
  intro n v₁ hv₁
  rcases lookup_of_insert hv₁ with ⟨rfl, rfl⟩ | hold₁
  · -- the new value: the others were there before
    refine ⟨k, hk, fun n' v' hv' hne => ?_⟩
    rcases lookup_of_insert hv' with ⟨rfl, -⟩ | hv'
    · exact absurd rfl hne
    · exact hothers n' v' hv'
  · obtain ⟨k₁, hk₁, hothers₁⟩ := h n v₁ hold₁
    refine ⟨k₁, hk₁, fun n' v' hv' hne => ?_⟩
    rcases lookup_of_insert hv' with ⟨rfl, rfl⟩ | hv'
    · obtain ⟨k', hk', hdiffer⟩ := hothers n v₁ hold₁
      cases hk₁.symm.trans hk'
      exact ⟨k, hk, Ne.symm hdiffer⟩
    · exact hothers₁ n' v' hv' hne

omit [DecidableEq K] in
/-- **The entries of such a map fit in one after the other.** -/
theorem Distinct.fits (h : Distinct key m) {l₁ l₂ : List (String × V)}
    (hl : m.toPairs = l₁ ++ (name, v) :: l₂) : Fits key (HashMap.ofPairs l₁) name v := by
  have hmem {n : String} {v' : V} (hn : (n, v') ∈ m.toPairs) : m.lookup n = some v' :=
    mem_toPairs.1 hn
  have hfresh : ∀ e ∈ l₁, e.1 ≠ name := by
    have hnodup := m.toPairs_keys_nodup
    rw [hl, map_append, map_cons, nodup_middle, nodup_cons] at hnodup
    intro e he heq
    refine hnodup.1 (mem_append_left _ ?_)
    rw [← heq]
    exact mem_map.2 ⟨e, he, rfl⟩
  obtain ⟨k, hk, hothers⟩ := h name v (hmem (by rw [hl]; simp))
  refine ⟨?_, k, hk, fun n v' hv' => ?_⟩
  · rw [lookup_ofPairs]
    exact lastValue_eq_none.2 hfresh
  · rw [lookup_ofPairs] at hv'
    have hin := mem_of_lastValue hv'
    exact hothers n v' (hmem (by rw [hl]; exact mem_append_left _ hin)) (hfresh _ hin)

end Distinct

/-! ## The sections of a rewritten file -/

def Memos.setAll {K : Type} [DecidableEq K] (m : Memos K) (l : List (String × K × String)) :
    Memos K :=
  l.foldl (fun m e => m.set e.1 e.2.1 e.2.2) m

def Assets.insertAll (m : Assets) (ds : List RegistryAssetData) : Assets :=
  ds.foldl Assets.insertData m

section Sections

variable {lib : Library} {w : World} {s t : State}

theorem foldl_addWollet (l : List (String × WolletDescriptor)) :
    l.foldl (fun s e => (Effect.addWollet e.1 e.2).on s) s =
      { s with wollets := HashMap.extend s.wollets l } := by
  induction l generalizing s with
  | nil => rfl
  | cons e l ih =>
    rw [foldl_cons, ih]
    rfl

theorem foldl_addSigner (l : List (String × AppSigner)) :
    l.foldl (fun s e => (Effect.addSigner e.1 e.2).on s) s =
      { s with signers := HashMap.extend s.signers l } := by
  induction l generalizing s with
  | nil => rfl
  | cons e l ih =>
    rw [foldl_cons, ih]
    rfl

theorem foldl_setTxMemo (l : List (String × Txid × String)) :
    l.foldl (fun s e => (Effect.setTxMemo e.1 e.2.1 e.2.2).on s) s =
      { s with txMemos := s.txMemos.setAll l } := by
  induction l generalizing s with
  | nil => rfl
  | cons e l ih =>
    rw [foldl_cons, ih]
    rfl

theorem foldl_setAddrMemo (l : List (String × Address × String)) :
    l.foldl (fun s e => (Effect.setAddrMemo e.1 e.2.1 e.2.2).on s) s =
      { s with addrMemos := s.addrMemos.setAll l } := by
  induction l generalizing s with
  | nil => rfl
  | cons e l ih =>
    rw [foldl_cons, ih]
    rfl

theorem replay_wollets {m : Wollets} (hdistinct : Distinct (firstAddr lib) m)
    (hreloads : ∀ n d, m.lookup n = some d →
      openWollet lib s.config (lib.descriptor.toStr d) = .ok d) (hempty : s.wollets = ∅) :
    replay lib w (m.toPairs.map fun e => .made (.walletLoad (lib.descriptor.toStr e.2) e.1)) s =
      .ok { s with wollets := HashMap.ofPairs m.toPairs } := by
  have heffects : replay lib w
      (m.toPairs.map fun e => .made (.walletLoad (lib.descriptor.toStr e.2) e.1)) s =
        .ok (m.toPairs.foldl (fun s e => (Effect.addWollet e.1 e.2).on s) s) := by
    apply replay_effects
    intro l₁ e l₂ hl
    have hfits := hdistinct.fits hl
    have hd := hreloads e.1 e.2 (mem_toPairs.1 (by rw [hl]; simp))
    rw [foldl_addWollet, hempty]
    exact ⟨_, Outcome.ok (.walletLoad hd hfits)⟩
  rw [heffects, foldl_addWollet, hempty]
  rfl

theorem outcome_signer {name : String} {signer : AppSigner} (hreloads : signer.Reloads lib s.config)
    (hfits : Fits (AppSigner.fingerprint lib w) s.signers name signer) :
    ∃ write, outcome lib w s (signer.request lib name) = .ok (.addSigner name signer, write) := by
  obtain ⟨inner, keep⟩ := signer
  cases inner with
  | jadeId id =>
    obtain ⟨hid, rfl⟩ := hreloads
    exact ⟨_, Outcome.ok (.signerLoadJade hid rfl hfits)⟩
  | externalSigner f =>
    obtain ⟨hf, rfl⟩ := hreloads
    exact ⟨_, Outcome.ok (.signerLoadExternal hf hfits)⟩
  | availableSigner any =>
    cases any with
    | jade id => exact False.elim hreloads
    | software sw =>
      have hnew : AppSigner.newSw lib (lib.mnemonic.toStr sw.mnemonic) s.config.isMainnet true =
        .ok ⟨.availableSigner (.software sw), keep⟩ := hreloads
      obtain ⟨m, xprv, -, hsigner⟩ := newSw_ok hnew
      cases hsigner
      exact ⟨_, Outcome.ok (.signerLoadSoftware hnew hfits)⟩

theorem replay_signers {m : Signers} (hdistinct : Distinct (AppSigner.fingerprint lib w) m)
    (hreloads : ∀ n signer, m.lookup n = some signer → AppSigner.Reloads lib s.config signer)
    (hempty : s.signers = ∅) : replay lib w (m.toPairs.map fun e => e.2.request lib e.1) s =
      .ok { s with signers := HashMap.ofPairs m.toPairs } := by
  have heffects : replay lib w (m.toPairs.map fun e => e.2.request lib e.1) s =
      .ok (m.toPairs.foldl (fun s e => (Effect.addSigner e.1 e.2).on s) s) := by
    apply replay_effects
    intro l₁ e l₂ hl
    have hfits := hdistinct.fits hl
    have hsigner := hreloads e.1 e.2 (mem_toPairs.1 (by rw [hl]; simp))
    rw [foldl_addSigner, hempty]
    exact outcome_signer hsigner hfits
  rw [heffects, foldl_addSigner, hempty]
  rfl

theorem replay_txMemos {m : Memos Txid}
    (hreloads : ∀ n txid memo, (m.forWollet n).lookup txid = some memo →
      lib.txid.fromStr (lib.txid.toStr txid) = .ok txid ∧ ∃ d, s.wollets.lookup n = some d) :
    replay lib w (m.requests fun name txid memo =>
        .made (.walletSetTxMemo name (lib.txid.toStr txid) memo)) s =
      .ok { s with txMemos := s.txMemos.setAll m.triples } := by
  rw [Memos.requests_eq, ← foldl_setTxMemo]
  apply replay_effects
  intro l₁ e l₂ hl
  have hmem : (e.1, e.2.1, e.2.2) ∈ m.triples := by
    rw [hl]
    simp
  obtain ⟨htxid, d, hd⟩ := hreloads _ _ _ (Memos.mem_triples.1 hmem)
  rw [foldl_setTxMemo]
  exact ⟨_, Outcome.ok (.walletSetTxMemo hd htxid)⟩

theorem replay_addrMemos {m : Memos Address}
    (hreloads : ∀ n address memo, (m.forWollet n).lookup address = some memo →
      lib.address.fromStr (lib.address.toStr address) = .ok address ∧
        ∃ d, s.wollets.lookup n = some d) :
    replay lib w (m.requests fun name address memo =>
        .made (.walletSetAddrMemo name (lib.address.toStr address) memo)) s =
      .ok { s with addrMemos := s.addrMemos.setAll m.triples } := by
  rw [Memos.requests_eq, ← foldl_setAddrMemo]
  apply replay_effects
  intro l₁ e l₂ hl
  have hmem : (e.1, e.2.1, e.2.2) ∈ m.triples := by
    rw [hl]
    simp
  obtain ⟨haddress, d, hd⟩ := hreloads _ _ _ (Memos.mem_triples.1 hmem)
  rw [foldl_setAddrMemo]
  exact ⟨_, Outcome.ok (.walletSetAddrMemo hd haddress)⟩

/-- Registry data as it is after its contract was written and read. -/
def reread (d : RegistryAssetData) : RegistryAssetData :=
  { d with contract := d.contract.canonical }

/-- **The line of an asset is accepted if its contract, written and read, keeps its hash.** -/
theorem outcome_asset_iff {config : Config} {d : RegistryAssetData} {o : Effect × Write}
    (hreloads : (Entry.asset d).Reloads lib config) :
    outcome lib w s (insertRequest lib d) = .ok o ↔
      d.contract.canonical.contractHash lib.hashing = d.contract.contractHash lib.hashing ∧
        o = (.addAsset (reread d), .append (insertRequest lib d)) := by
  obtain ⟨hid, htx, hc, hnew⟩ := hreloads
  show ((insertData lib _ _ _) >>= _) = _ ↔ _
  rw [insertData, hid, htx, hc]
  show ((RegistryAssetData.new lib.hashing d.assetId d.issuanceTx d.contract.canonical).mapError
    Error.registry >>= _) = _ ↔ _
  simp only [except_bind_ok_iff, mapError_ok_iff, RegistryAssetData.new_iff hnew]
  constructor
  · rintro ⟨d', ⟨hhash, rfl⟩, h⟩
    exact ⟨hhash, (Except.ok.inj h).symm⟩
  · rintro ⟨hhash, rfl⟩
    exact ⟨_, ⟨hhash, rfl⟩, rfl⟩

theorem replay_assets_iff {config : Config} {ds : List RegistryAssetData}
    (hreloads : ∀ d ∈ ds, (Entry.asset d).Reloads lib config) :
    replay lib w (ds.map (insertRequest lib)) s = .ok t ↔ (∀ d ∈ ds,
        d.contract.canonical.contractHash lib.hashing = d.contract.contractHash lib.hashing) ∧
        t = { s with assets := s.assets.insertAll (ds.map reread) } := by
  induction ds generalizing s with
  | nil =>
    constructor
    · intro h
      cases h
      exact ⟨fun _ hd => (nomatch hd), rfl⟩
    · rintro ⟨-, rfl⟩
      rfl
  | cons d ds ih =>
    obtain ⟨hd, hds⟩ := forall_mem_cons.1 hreloads
    rw [map_cons, replay_cons_ok_iff, forall_mem_cons]
    simp only [outcome_asset_iff hd, ih hds]
    constructor
    · rintro ⟨o, ⟨hhash, rfl⟩, hrest, rfl⟩
      exact ⟨⟨hhash, hrest⟩, rfl⟩
    · rintro ⟨⟨hhash, hrest⟩, rfl⟩
      exact ⟨_, ⟨hhash, rfl⟩, hrest, rfl⟩

end Sections

/-! ## A rewritten file -/

def AppAsset.assetId : AppAsset → AssetId
  | .policyAsset asset => asset
  | .registryAsset d => d.assetId
  | .reissuanceToken d => d.tokenId

/-- What holds of the state of a server in which no emulator is used and every software signer is to
be saved. -/
structure Valid (lib : Library) (config : Config) (s : State) : Prop where
  config_eq : s.config = config
  reloads : ∀ entry, s.Holds entry → entry.Reloads lib config
  addresses : Distinct (firstAddr lib) s.wollets
  fingerprints : ∀ w, Distinct (AppSigner.fingerprint lib w) s.signers
  txMemos : ∀ n txid memo, (s.txMemos.forWollet n).lookup txid = some memo →
    ∃ d, s.wollets.lookup n = some d
  addrMemos : ∀ n address memo, (s.addrMemos.forWollet n).lookup address = some memo →
    ∃ d, s.wollets.lookup n = some d
  assets : ∀ id asset, s.assets.lookup id = some asset → id = asset.assetId
  policy : ∀ id asset, s.assets.lookup id = some (.policyAsset asset) → asset = config.policyAsset

section Rewritten

variable {lib : Library} {config : Config} {w : World} {s t : State}

theorem same_ofPairs {K V : Type} [DecidableEq K] (m : HashMap K V) :
    HashMap.Same m (HashMap.ofPairs m.toPairs) := by
  intro k
  rw [lookup_ofPairs]
  cases hk : m.lookup k with
  | none =>
    refine (lastValue_eq_none.2 fun e he heq => ?_).symm
    rw [← heq, mem_toPairs.1 he] at hk
    cases hk
  | some v =>
    refine (lastValue_eq_some (mem_toPairs.2 hk) fun v' hv' => ?_).symm
    exact Option.some.inj ((mem_toPairs.1 hv').symm.trans hk)

theorem Memos.lookup_setAll {K : Type} [DecidableEq K] (m : Memos K)
    (l : List (String × K × String)) (n : String) (k : K) : ((m.setAll l).forWollet n).lookup k =
      (HashMap.lastValue (n, k) (l.map fun e => ((e.1, e.2.1), e.2.2))).or
        ((m.forWollet n).lookup k) := by
  induction l generalizing m with
  | nil => rfl
  | cons e l ih =>
    have hset : (((m.set e.1 e.2.1 e.2.2).forWollet n).lookup k) =
        (if (e.1, e.2.1) = (n, k) then some e.2.2 else none).or ((m.forWollet n).lookup k) := by
      rw [Memos.forWollet_set]
      by_cases hn : n = e.1
      · subst hn
        by_cases hk : k = e.2.1
        · subst hk
          simp
        · rw [if_pos rfl, AList.lookup_insert_ne hk]
          simp [Ne.symm hk]
      · rw [if_neg hn]
        simp [Ne.symm hn]
    rw [map_cons, lastValue_cons, Option.or_assoc, ← hset]
    exact ih (m.set e.1 e.2.1 e.2.2)

theorem same_setAll {K : Type} [DecidableEq K] (m : Memos K) :
    m.Same (Memos.setAll ∅ m.triples) := by
  intro n k
  rw [Memos.lookup_setAll]
  have hmem {n' : String} {k' : K} {memo : String} :
      ((n', k'), memo) ∈ m.triples.map (fun e => ((e.1, e.2.1), e.2.2)) ↔
        (m.forWollet n').lookup k' = some memo := by
    rw [← Memos.mem_triples]
    simp
  cases hk : (m.forWollet n).lookup k with
  | none =>
    have hnone : HashMap.lastValue (n, k) (m.triples.map fun e => ((e.1, e.2.1), e.2.2)) =
        none := by
      refine lastValue_eq_none.2 fun e he heq => ?_
      obtain ⟨⟨n', k'⟩, memo⟩ := e
      cases heq
      rw [hmem.1 he] at hk
      cases hk
    rw [hnone]
    rfl
  | some memo =>
    have hsome : HashMap.lastValue (n, k) (m.triples.map fun e => ((e.1, e.2.1), e.2.2)) =
        some memo := by
      refine lastValue_eq_some (hmem.2 hk) fun memo' hmemo' => ?_
      exact Option.some.inj ((hmem.1 hmemo').symm.trans hk)
    rw [hsome]
    rfl

def State.reloaded (s : State) : State where
  config := s.config
  wollets := HashMap.ofPairs s.wollets.toPairs
  signers := HashMap.ofPairs s.signers.toPairs
  assets := (State.new s.config).assets.insertAll (s.assets.registryData.map reread)
  txMemos := Memos.setAll ∅ s.txMemos.triples
  addrMemos := Memos.setAll ∅ s.addrMemos.triples
  doPersist := false

/-- **Replaying a rewritten file.** It is accepted if the contracts keep their hashes, and then
gives everything back but, perhaps, the assets. -/
theorem replay_asRequests_iff (hs : Valid lib config s) :
    replay lib w (s.asRequests lib) (.new config) = .ok t ↔ (∀ d ∈ s.assets.registryData,
        d.contract.canonical.contractHash lib.hashing = d.contract.contractHash lib.hashing) ∧
        t = s.reloaded := by
  obtain rfl := hs.config_eq
  have hloaded {n : String} (h : ∃ d, s.wollets.lookup n = some d) :
      ∃ d, (HashMap.ofPairs s.wollets.toPairs).lookup n = some d := by
    rw [← same_ofPairs s.wollets n]
    exact h
  -- the state after each section
  let s₁ : State := { State.new s.config with wollets := HashMap.ofPairs s.wollets.toPairs }
  let s₂ : State := { s₁ with txMemos := Memos.setAll ∅ s.txMemos.triples }
  let s₃ : State := { s₂ with addrMemos := Memos.setAll ∅ s.addrMemos.triples }
  let s₄ : State := { s₃ with signers := HashMap.ofPairs s.signers.toPairs }
  have h₁ : replay lib w _ (State.new s.config) = .ok s₁ :=
    replay_wollets hs.addresses (fun n d hd => hs.reloads _ (.wollet hd)) rfl
  have h₂ : replay lib w _ s₁ = .ok s₂ := replay_txMemos fun n txid memo h =>
    ⟨hs.reloads _ (.txMemo h), hloaded (hs.txMemos n txid memo h)⟩
  have h₃ : replay lib w _ s₂ = .ok s₃ := replay_addrMemos fun n address memo h =>
    ⟨hs.reloads _ (.addrMemo h), hloaded (hs.addrMemos n address memo h)⟩
  have h₄ : replay lib w _ s₃ = .ok s₄ :=
    replay_signers (hs.fingerprints w) (fun n signer h => hs.reloads _ (.signer h)) rfl
  have hassets : ∀ d ∈ s.assets.registryData, (Entry.asset d).Reloads lib s.config := by
    intro d hd
    obtain ⟨id, hid⟩ := Assets.mem_registryData.1 hd
    exact hs.reloads _ (.asset hid)
  rw [State.asRequests, Assets.requests_eq, replay_append, replay_append, replay_append,
    replay_append, h₁]
  show ((replay lib w _ s₁ >>= _) >>= _) >>= _ = _ ↔ _
  rw [h₂]
  show (replay lib w _ s₂ >>= _) >>= _ = _ ↔ _
  rw [h₃]
  show replay lib w _ s₃ >>= _ = _ ↔ _
  rw [h₄]
  show replay lib w _ s₄ = _ ↔ _
  rw [replay_assets_iff hassets]
  rfl

end Rewritten

/-- **Wallets stay apart.** Whatever is requested, and whatever fails, no two wallets of a server
have the same first address. -/
theorem wollets_distinct (lib : Library) (config : Config) (requests : List (World × Request)) :
    Distinct (firstAddr lib) (requests.foldl (fun srv e => srv.next lib e.1 e.2)
      (Server.start config)).state.wollets := by
  have hstep (srv : Server) (w : World) (r : Request)
      (h : Distinct (firstAddr lib) srv.state.wollets) :
      Distinct (firstAddr lib) (srv.next lib w r).state.wollets := by
    cases hlock : srv.poisoned with
    | true => rwa [next_poisoned hlock]
    | false =>
      rw [next_eq hlock]
      cases ho : outcome lib w srv.state r with
      | error _ => exact h
      | ok o =>
        have hstate : (srv.after lib o).state = o.1.on srv.state := by
          unfold Server.after
          split <;> rfl
        show Distinct _ (srv.after lib o).state.wollets
        rw [hstate]
        obtain ⟨effect, write⟩ := o
        cases outcome_of_ok ho with
        | walletLoad _ hfits => exact h.insert hfits
        | walletUnload => exact h.erase
        | _ => exact h
  have hstart : Distinct (firstAddr lib) (Server.start config).state.wollets :=
    fun n v h => absurd h (by simp [Server.start, State.new])
  generalize Server.start config = srv at hstart
  induction requests generalizing srv with
  | nil => exact hstart
  | cons e requests ih => exact ih _ (hstep srv e.1 e.2 hstart)

end Swk.App
