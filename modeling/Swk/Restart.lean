import Swk.Reload
import Swk.UnsavedSigner

/-!
# Restarting the server

After a restart the server should be in the state it was in. Requests that add something are
appended to the file as they came, and handling them again has the same outcome
(`outcome_world`). What is written anew is another matter, and there it is the assets that get
lost (`reloaded_same_iff`):

* An issued asset has two entries in the map, and `asset_remove` removes one of them. Only the entry
  of the asset is written, and loading it inserts both. So a removed asset leaves a token that is
  lost at the restart, a removed token comes back, and so does a removed policy asset.
* A contract is written without the fields the wallet does not know. Its hash is then not the one
  the asset commits to, and the server refuses to start.

A server restarts as it was, at every point of a run, as long as the assets are in pairs with
contracts that can be written (`Paired`) whenever something is removed, and the contracts fetched
from the registry can be written.
-/

namespace Swk.App

open HashMap

open Registry (RegistryAssetData)

/-! ## Maps of assets that can be written -/

/-- The policy asset is there, every issued asset has its token and every token its asset, and the
contracts are what the wallet writes for them. -/
structure Paired (policy : AssetId) (m : Assets) : Prop where
  policy : m.lookup policy = some (.policyAsset policy)
  asset : ∀ id d, m.lookup id = some (.registryAsset d) →
    d.contract.Canonical ∧ m.lookup d.tokenId = some (.reissuanceToken d)
  token : ∀ id d, m.lookup id = some (.reissuanceToken d) →
    m.lookup d.assetId = some (.registryAsset d)

/-- No two ids of the issued assets are the same by accident. -/
structure NoCollision (policy : AssetId) (m : Assets) : Prop where
  policy : ∀ id d, m.lookup id = some (.registryAsset d) → d.tokenId ≠ policy ∧ d.assetId ≠ policy
  kinds : ∀ id d id' d', m.lookup id = some (.registryAsset d) →
    m.lookup id' = some (.registryAsset d') → d.tokenId ≠ d'.assetId
  tokens : ∀ id d id' d', m.lookup id = some (.registryAsset d) →
    m.lookup id' = some (.registryAsset d') → d.tokenId = d'.tokenId → d.assetId = d'.assetId

def assetPairs (ds : List RegistryAssetData) : List (AssetId × AppAsset) :=
  ds.flatMap fun d => [(d.assetId, .registryAsset d), (d.tokenId, .reissuanceToken d)]

section Assets

variable {lib : Library} {config : Config} {s : State} {k : AssetId} {asset : AppAsset}

theorem insertAll_eq (m : Assets) (ds : List RegistryAssetData) :
    m.insertAll ds = HashMap.extend m (assetPairs ds) := by
  induction ds generalizing m with
  | nil => rfl
  | cons d ds ih =>
    show (m.insertData d).insertAll ds = _
    rw [ih]
    rfl

variable {ds : List RegistryAssetData} {d : RegistryAssetData} {policy : AssetId} {m : Assets}

theorem mem_assetPairs : (k, asset) ∈ assetPairs ds ↔
      ∃ d ∈ ds, k = d.assetId ∧ asset = .registryAsset d ∨
        k = d.tokenId ∧ asset = .reissuanceToken d := by
  simp [assetPairs]

theorem lookup_new_assets : (State.new config).assets.lookup k =
      if k = config.policyAsset then some (.policyAsset config.policyAsset) else none := by
  rw [State.new]
  by_cases hk : k = config.policyAsset
  · rw [if_pos hk, hk, AList.lookup_insert]
  · rw [if_neg hk, AList.lookup_insert_ne hk]
    rfl

theorem reread_eq_iff : reread d = d ↔ d.contract.Canonical := by
  rw [← Registry.Contract.canonical_eq_iff]
  obtain ⟨assetId, tokenId, issuanceVin, issuanceTx, contract⟩ := d
  simp [reread]

theorem map_reread_eq (h : ∀ d ∈ ds, d.contract.Canonical) :
    ds.map reread = ds := by
  have hmap : ds.map reread = ds.map id := List.map_congr_left fun d hd => reread_eq_iff.2 (h d hd)
  rw [hmap, List.map_id]

theorem Paired.canonical (hp : Paired policy m) :
    ∀ d ∈ m.registryData, d.contract.Canonical := by
  intro d hd
  obtain ⟨id, hid⟩ := Assets.mem_registryData.1 hd
  exact (hp.asset id d hid).1

theorem lastValue_policy (hids : NoCollision config.policyAsset s.assets) :
    HashMap.lastValue config.policyAsset (assetPairs s.assets.registryData) = none := by
  refine lastValue_eq_none.2 fun e he heq => ?_
  obtain ⟨d, hd, h⟩ := mem_assetPairs.1 he
  obtain ⟨id, hid⟩ := Assets.mem_registryData.1 hd
  rcases h with ⟨h, -⟩ | ⟨h, -⟩
  · exact (hids.policy id d hid).2 (h.symm.trans heq)
  · exact (hids.policy id d hid).1 (h.symm.trans heq)

theorem paired_new : Paired config.policyAsset (State.new config).assets := by
  have hpolicy {id : AssetId} {asset : AppAsset}
      (h : (State.new config).assets.lookup id = some asset) :
      asset = .policyAsset config.policyAsset := by
    rw [lookup_new_assets] at h
    split at h
    · exact (Option.some.inj h).symm
    · cases h
  refine ⟨?_, fun id d hid => ?_, fun id d hid => ?_⟩
  · rw [lookup_new_assets, if_pos rfl]
  · cases hpolicy hid
  · cases hpolicy hid

theorem lookup_of_insertData (h : (m.insertData d).lookup k = some asset) :
    k = d.tokenId ∧ asset = .reissuanceToken d ∨ k = d.assetId ∧ asset = .registryAsset d ∨
      m.lookup k = some asset :=
  (lookup_of_insert h).imp id lookup_of_insert

theorem Paired.insertData (hp : Paired policy m) (hcanonical : d.contract.Canonical)
    (hids : d.tokenId ≠ d.assetId) (hasset : m.lookup d.assetId = none)
    (htoken : m.lookup d.tokenId = none) :
    Paired policy (m.insertData d) := by
  -- nothing that was there is replaced
  have hold {id : AssetId} {asset : AppAsset} (h : m.lookup id = some asset) :
      (m.insertData d).lookup id = some asset := by
    have htoken' : id ≠ d.tokenId := by
      rintro rfl
      cases htoken.symm.trans h
    have hasset' : id ≠ d.assetId := by
      rintro rfl
      cases hasset.symm.trans h
    rw [lookup_insertData, if_neg htoken', if_neg hasset']
    exact h
  have hnew : (m.insertData d).lookup d.tokenId = some (.reissuanceToken d) := by
    rw [lookup_insertData, if_pos rfl]
  have hnew' : (m.insertData d).lookup d.assetId = some (.registryAsset d) := by
    rw [lookup_insertData, if_neg (Ne.symm hids), if_pos rfl]
  refine ⟨hold hp.policy, fun id d' hid => ?_, fun id d' hid => ?_⟩
  · rcases lookup_of_insertData hid with ⟨-, h⟩ | ⟨-, h⟩ | hid
    · cases h
    · cases h
      exact ⟨hcanonical, hnew⟩
    · exact ⟨(hp.asset id d' hid).1, hold (hp.asset id d' hid).2⟩
  · rcases lookup_of_insertData hid with ⟨-, h⟩ | ⟨-, h⟩ | hid
    · cases h
      exact hnew'
    · cases h
    · exact hold (hp.token id d' hid)

variable (hs : Valid lib config s)

include hs

theorem lookup_reloaded_assets : s.reloaded.assets.lookup k =
      (HashMap.lastValue k (assetPairs (s.assets.registryData.map reread))).or
        (if k = config.policyAsset then some (.policyAsset config.policyAsset) else none) := by
  rw [State.reloaded, insertAll_eq, lookup_extend, hs.config_eq, lookup_new_assets]

theorem Paired.lookup (hp : Paired config.policyAsset s.assets)
    (h : (k, asset) ∈ assetPairs s.assets.registryData) : s.assets.lookup k = some asset := by
  obtain ⟨d, hd, h⟩ := mem_assetPairs.1 h
  obtain ⟨id, hid⟩ := Assets.mem_registryData.1 hd
  rcases h with ⟨rfl, rfl⟩ | ⟨rfl, rfl⟩
  · have hkey : id = d.assetId := hs.assets id _ hid
    rw [← hkey]
    exact hid
  · exact (hp.asset id d hid).2

theorem Paired.same (hp : Paired config.policyAsset s.assets) :
    HashMap.Same s.assets s.reloaded.assets := by
  intro k
  rw [lookup_reloaded_assets hs, map_reread_eq hp.canonical]
  have hlast {asset : AppAsset} (h : (k, asset) ∈ assetPairs s.assets.registryData) :
      HashMap.lastValue k (assetPairs s.assets.registryData) = some asset :=
    lastValue_eq_some h fun asset' h' =>
      Option.some.inj ((hp.lookup hs h').symm.trans (hp.lookup hs h))
  cases hk : s.assets.lookup k with
  | none =>
    have hnone : HashMap.lastValue k (assetPairs s.assets.registryData) = none := by
      refine lastValue_eq_none.2 fun e he heq => ?_
      rw [← heq, hp.lookup hs he] at hk
      cases hk
    have hne : k ≠ config.policyAsset := by
      rintro rfl
      rw [hp.policy] at hk
      cases hk
    rw [hnone, if_neg hne]
    rfl
  | some asset =>
    have hkey := hs.assets k asset hk
    cases asset with
    | registryAsset d =>
      have hmem : (k, AppAsset.registryAsset d) ∈ assetPairs s.assets.registryData :=
        mem_assetPairs.2 ⟨d, Assets.mem_registryData.2 ⟨k, hk⟩, .inl ⟨hkey, rfl⟩⟩
      rw [hlast hmem]
      rfl
    | reissuanceToken d =>
      have hd := Assets.mem_registryData.2 ⟨_, hp.token k d hk⟩
      have hmem : (k, AppAsset.reissuanceToken d) ∈ assetPairs s.assets.registryData :=
        mem_assetPairs.2 ⟨d, hd, .inr ⟨hkey, rfl⟩⟩
      rw [hlast hmem]
      rfl
    | policyAsset asset =>
      have hpolicy : k = config.policyAsset := hkey.trans (hs.policy k asset hk)
      have hnone : HashMap.lastValue k (assetPairs s.assets.registryData) = none := by
        refine lastValue_eq_none.2 fun e he heq => ?_
        obtain ⟨d, -, h⟩ := mem_assetPairs.1 he
        have hlookup := hp.lookup hs he
        rw [heq, hk] at hlookup
        rcases h with ⟨-, h⟩ | ⟨-, h⟩ <;> rw [h] at hlookup <;> cases hlookup
      rw [hnone, if_pos hpolicy, hs.policy k asset hk]
      rfl

theorem lastValue_token (hids : NoCollision config.policyAsset s.assets) {id : AssetId}
    (hid : s.assets.lookup id = some (.registryAsset d)) :
    HashMap.lastValue d.tokenId (assetPairs s.assets.registryData) = some (.reissuanceToken d) := by
  have hkey {id : AssetId} {d : RegistryAssetData}
      (hid : s.assets.lookup id = some (.registryAsset d)) : id = d.assetId := hs.assets id _ hid
  have hmem : (d.tokenId, AppAsset.reissuanceToken d) ∈ assetPairs s.assets.registryData :=
    mem_assetPairs.2 ⟨d, Assets.mem_registryData.2 ⟨id, hid⟩, .inr ⟨rfl, rfl⟩⟩
  refine lastValue_eq_some hmem fun asset hasset => ?_
  obtain ⟨d', hd', h⟩ := mem_assetPairs.1 hasset
  obtain ⟨id', hid'⟩ := Assets.mem_registryData.1 hd'
  rcases h with ⟨h, -⟩ | ⟨h, rfl⟩
  · exact absurd h (hids.kinds id d id' d' hid hid')
  · -- tokens with one id have one asset, and an asset has one entry
    have hasset := hids.tokens id d id' d' hid hid' h
    rw [hkey hid, hasset, ← hkey hid', hid'] at hid
    cases hid
    rfl

variable (h : HashMap.Same s.assets s.reloaded.assets)

include h

theorem mem_assetPairs_of_same (hk : s.assets.lookup k = some asset)
    (hne : ∀ a, asset ≠ .policyAsset a) :
    (k, asset) ∈ assetPairs (s.assets.registryData.map reread) := by
  have hreloaded := (h k).symm.trans hk
  rw [lookup_reloaded_assets hs, Option.or_eq_some_iff] at hreloaded
  rcases hreloaded with hlast | ⟨-, hbase⟩
  · exact mem_of_lastValue hlast
  · split at hbase
    · exact absurd (Option.some.inj hbase).symm (hne _)
    · cases hbase

theorem canonical_of_same :
    ∀ d ∈ s.assets.registryData, d.contract.Canonical := by
  intro d hd
  obtain ⟨id, hid⟩ := Assets.mem_registryData.1 hd
  obtain ⟨d', hd', hpair⟩ := mem_assetPairs.1 (mem_assetPairs_of_same hs h hid fun _ h => nomatch h)
  obtain ⟨d₀, -, rfl⟩ := List.mem_map.1 hd'
  rcases hpair with ⟨-, heq⟩ | ⟨-, heq⟩
  · cases heq
    exact Registry.Contract.canonical_canonical _
  · cases heq

theorem paired_of_same (hids : NoCollision config.policyAsset s.assets) :
    Paired config.policyAsset s.assets := by
  have hcanonical := canonical_of_same hs h
  have hreloaded (k : AssetId) : s.assets.lookup k =
      (HashMap.lastValue k (assetPairs s.assets.registryData)).or
        (if k = config.policyAsset then some (.policyAsset config.policyAsset) else none) := by
    rw [h k, lookup_reloaded_assets hs, map_reread_eq hcanonical]
  constructor
  · rw [hreloaded, lastValue_policy hids, if_pos rfl]
    rfl
  · intro id d hid
    refine ⟨hcanonical d (Assets.mem_registryData.2 ⟨id, hid⟩), ?_⟩
    rw [hreloaded, lastValue_token hs hids hid]
    rfl
  · intro id d hid
    have hline := mem_assetPairs_of_same hs h hid fun _ h => nomatch h
    rw [map_reread_eq hcanonical] at hline
    obtain ⟨d', hd', hpair⟩ := mem_assetPairs.1 hline
    obtain ⟨id', hid'⟩ := Assets.mem_registryData.1 hd'
    rcases hpair with ⟨-, heq⟩ | ⟨-, heq⟩
    · cases heq
    · cases heq
      have hkey : id' = d.assetId := hs.assets id' _ hid'
      rw [← hkey]
      exact hid'

end Assets

/-! ## Validity along a run -/

def Effect.Accepted (lib : Library) (w : World) (s : State) : Effect → Prop
  | .addWollet name d => Fits (firstAddr lib) s.wollets name d
  | .addSigner name signer => Fits (AppSigner.fingerprint lib w) s.signers name signer
  | .setTxMemo name _ _ | .setAddrMemo name _ _ => ∃ d, s.wollets.lookup name = some d
  | _ => True

/-- The request fetches the data of an asset that is not there. -/
def Fetches (lib : Library) (w : World) (s : State) (p : Params) (d : RegistryAssetData) : Prop :=
  ∃ assetId id, p = .assetFromRegistry assetId ∧ lib.assetId.fromStr assetId = .ok id ∧
    id ∉ s.assets ∧ fetchData lib w id = .ok d

section Valid

variable {lib : Library} {config : Config} {w w' : World} {s t : State} {r : Request} {e : Effect}
  {write : Write} {o : Effect × Write}

theorem fingerprint_world {signer : AppSigner} (h : signer.Reloads lib config) :
    signer.fingerprint lib w = signer.fingerprint lib w' := by
  obtain ⟨inner, keep⟩ := signer
  cases inner with
  | jadeId id => rfl
  | externalSigner f => rfl
  | availableSigner any =>
    cases any with
    | software sw => rfl
    | jade id => exact False.elim h

theorem fits_world {m : Signers} {name : String} {signer : AppSigner}
    (hm : ∀ n signer, m.lookup n = some signer → AppSigner.Reloads lib config signer)
    (hsigner : signer.Reloads lib config) (h : Fits (AppSigner.fingerprint lib w) m name signer) :
    Fits (AppSigner.fingerprint lib w') m name signer := by
  obtain ⟨k, hk, hothers⟩ := h.key
  refine ⟨h.name, k, (fingerprint_world hsigner).trans hk, fun n signer' hn => ?_⟩
  obtain ⟨k', hk', hne⟩ := hothers n signer' hn
  exact ⟨k', (fingerprint_world (hm n signer' hn)).trans hk', hne⟩

theorem loaded_insert {m : Wollets} {n name : String} {d : WolletDescriptor}
    (h : ∃ d, m.lookup n = some d) : ∃ d', (AList.insert name d m).lookup n = some d' := by
  by_cases hn : n = name
  · rw [hn, AList.lookup_insert]
    exact ⟨d, rfl⟩
  · rw [AList.lookup_insert_ne hn]
    exact h

theorem Valid.same (hs : Valid lib config s) (h : s.Same t) : Valid lib config t where
  config_eq := h.config.symm.trans hs.config_eq
  reloads entry hentry := hs.reloads entry (hentry.same h.symm)
  addresses := hs.addresses.same h.wollets
  fingerprints w := (hs.fingerprints w).same h.signers
  txMemos n txid memo hm := by
    rw [← h.wollets n]
    exact hs.txMemos n txid memo ((h.txMemos n txid).trans hm)
  addrMemos n address memo hm := by
    rw [← h.wollets n]
    exact hs.addrMemos n address memo ((h.addrMemos n address).trans hm)
  assets id asset ha := hs.assets id asset ((h.assets id).trans ha)
  policy id asset ha := hs.policy id asset ((h.assets id).trans ha)

/-- **A change that was accepted keeps a state valid.** -/
theorem Valid.on (hs : Valid lib config s) (haccepted : e.Accepted lib w s)
    (hreloads : ∀ entry, e.adds = some entry → entry.Reloads lib config) :
    Valid lib config (e.on s) := by
  have hconfig := (e.on_config s).trans hs.config_eq
  have hentries (entry : Entry) (h : (e.on s).Holds entry) : entry.Reloads lib config := by
    rcases h.of_on with h | h
    · exact hs.reloads entry h
    · exact hreloads entry h
  cases e with
  | addWollet name d =>
    exact { hs with
      config_eq := hconfig
      reloads := hentries
      addresses := hs.addresses.insert haccepted
      txMemos := fun n txid memo h => loaded_insert (hs.txMemos n txid memo h)
      addrMemos := fun n address memo h => loaded_insert (hs.addrMemos n address memo h) }
  | dropWollet name =>
    refine { hs with
      config_eq := hconfig
      reloads := hentries
      addresses := hs.addresses.erase
      txMemos := fun n txid memo h => ?_
      addrMemos := fun n address memo h => ?_ }
    · obtain ⟨hne, h⟩ := memo_of_erase h
      show ∃ d, (AList.erase name s.wollets).lookup n = some d
      rw [AList.lookup_erase_ne hne]
      exact hs.txMemos n txid memo h
    · obtain ⟨hne, h⟩ := memo_of_erase h
      show ∃ d, (AList.erase name s.wollets).lookup n = some d
      rw [AList.lookup_erase_ne hne]
      exact hs.addrMemos n address memo h
  | addSigner name signer =>
    have hsigners (n : String) (signer : AppSigner) (h : s.signers.lookup n = some signer) :
        signer.Reloads lib config := hs.reloads _ (.signer h)
    exact { hs with
      config_eq := hconfig
      reloads := hentries
      fingerprints := fun w' => (hs.fingerprints w').insert
        (fits_world hsigners (hreloads _ rfl) haccepted) }
  | dropSigner name =>
    exact { hs with
      config_eq := hconfig
      reloads := hentries
      fingerprints := fun w' => (hs.fingerprints w').erase }
  | setTxMemo name txid memo =>
    refine { hs with
      config_eq := hconfig
      reloads := hentries
      txMemos := fun n txid memo h => ?_ }
    rcases memo_of_set h with ⟨rfl, -, -⟩ | h
    · exact haccepted
    · exact hs.txMemos n txid memo h
  | setAddrMemo name address memo =>
    refine { hs with
      config_eq := hconfig
      reloads := hentries
      addrMemos := fun n address memo h => ?_ }
    rcases memo_of_set h with ⟨rfl, -, -⟩ | h
    · exact haccepted
    · exact hs.addrMemos n address memo h
  | addAsset d =>
    refine { hs with
      config_eq := hconfig
      reloads := hentries
      assets := fun id asset h => ?_
      policy := fun id asset h => ?_ }
    · rcases lookup_of_insertData h with ⟨rfl, rfl⟩ | ⟨rfl, rfl⟩ | h
      · rfl
      · rfl
      · exact hs.assets id asset h
    · rcases lookup_of_insertData h with ⟨-, h⟩ | ⟨-, h⟩ | h
      · cases h
      · cases h
      · exact hs.policy id asset h
  | dropAsset id =>
    exact { hs with
      config_eq := hconfig
      reloads := hentries
      assets := fun id asset h => hs.assets id asset (lookup_of_erase h).2
      policy := fun id asset h => hs.policy id asset (lookup_of_erase h).2 }

theorem Valid.start : Valid lib config (Server.start config).state where
  config_eq := rfl
  reloads _ h := absurd h not_holds_start
  addresses _ _ h := nomatch h
  fingerprints _ _ _ h := nomatch h
  txMemos _ _ _ h := nomatch h
  addrMemos _ _ _ h := nomatch h
  assets id asset h := by
    rcases lookup_of_insert h with ⟨rfl, rfl⟩ | h
    · rfl
    · cases h
  policy id asset h := by
    rcases lookup_of_insert h with ⟨-, h⟩ | h
    · cases h
      rfl
    · cases h

/-- **The three kinds of requests.** One that adds is appended as it is, one that removes rewrites
the file, and one that fetches an asset is written as an insertion. -/
theorem outcome_kinds (hs : Valid lib config s) (hr : r.params.Plain)
    (ho : outcome lib w s r = .ok (e, write)) : e.Accepted lib w s ∧
      ((r.params.Adds ∧ write = .append r) ∨ (Removes lib w s r.params e ∧ write = .rewrite) ∨
        ∃ d, Fetches lib w s r.params d ∧ e = .addAsset d ∧
          write = if d.tokenId = d.assetId then .poison else .append (insertRequest lib d)) := by
  cases outcome_of_ok ho with
  | walletLoad hopen hfits => exact ⟨hfits, .inl ⟨trivial, rfl⟩⟩
  | walletUnload hd => exact ⟨trivial, .inr (.inl ⟨.wollet hd, rfl⟩)⟩
  | signerLoadSoftware hnew hfits => exact ⟨hfits, .inl ⟨rfl, rfl⟩⟩
  | signerNotKept hnew hfits => cases hr
  | signerLoadJade hid hnew hfits => exact ⟨hfits, .inl ⟨hr, rfl⟩⟩
  | signerLoadExternal hprint hfits => exact ⟨hfits, .inl ⟨trivial, rfl⟩⟩
  | signerUnload hremoved hprint => exact ⟨trivial, .inr (.inl ⟨.signer hremoved hprint, rfl⟩)⟩
  | signerMute hremoved hprint =>
    -- without connected devices every signer has its fingerprint at hand
    obtain ⟨fingerprint, hok, -⟩ := hs.fingerprints w _ _ hremoved
    cases hok.symm.trans hprint
  | walletSetTxMemo hd htxid => exact ⟨⟨_, hd⟩, .inl ⟨trivial, rfl⟩⟩
  | walletSetAddrMemo hd haddress => exact ⟨⟨_, hd⟩, .inl ⟨trivial, rfl⟩⟩
  | assetInsert hd => exact ⟨trivial, .inl ⟨trivial, rfl⟩⟩
  | assetRemove hid hasset => exact ⟨trivial, .inr (.inl ⟨.asset hid hasset, rfl⟩)⟩
  | assetFromRegistry hid hnew hd hne =>
    exact ⟨trivial, .inr (.inr ⟨_, ⟨_, _, rfl, hid, hnew, hd⟩, rfl, (if_neg hne).symm⟩)⟩
  | assetCollides hid hnew hd heq =>
    exact ⟨trivial, .inr (.inr ⟨_, ⟨_, _, rfl, hid, hnew, hd⟩, rfl, (if_pos heq).symm⟩)⟩

theorem outcome_world (hlib : lib.RoundTrips) (hs : Valid lib config s) (hr : r.params.Adds)
    (ho : outcome lib w s r = .ok (e, write)) : outcome lib w' s r = .ok (e, write) := by
  have hfits' {name : String} {signer : AppSigner} (hsigner : signer.Reloads lib config)
      (hfits : Fits (AppSigner.fingerprint lib w) s.signers name signer) :
      Fits (AppSigner.fingerprint lib w') s.signers name signer :=
    fits_world (fun n signer h => hs.reloads _ (.signer h)) hsigner hfits
  cases outcome_of_ok ho with
  | walletLoad hopen hfits => exact ho
  | signerLoadSoftware hnew hfits =>
    have hnew' := hnew
    rw [hs.config_eq] at hnew'
    exact Outcome.ok (.signerLoadSoftware hnew (hfits' (newSw_reloads hlib hnew') hfits))
  | signerNotKept hnew hfits => cases hr
  | signerLoadJade hid hnew hfits =>
    cases hr
    cases hnew
    exact Outcome.ok (.signerLoadJade hid rfl (hfits' ⟨hlib.xkeyIdentifier _ _ hid, rfl⟩ hfits))
  | signerLoadExternal hprint hfits =>
    exact Outcome.ok (.signerLoadExternal hprint (hfits' ⟨hlib.fingerprint _ _ hprint, rfl⟩ hfits))
  | walletSetTxMemo hd htxid => exact ho
  | walletSetAddrMemo hd haddress => exact ho
  | assetInsert hd => exact ho
  | _ => exact False.elim hr

end Valid

/-! ## Runs -/

/-- Starting the server from its file gives the state it is in, and leaves the file as it is. -/
def Restores (lib : Library) (config : Config) (srv : Server) : Prop :=
  ∀ w, ∃ srv', run lib w config srv.file = .ok srv' ∧ srv.state.Same srv'.state ∧
    srv'.file = srv.file

/-- The condition on a request: if it removes something, the assets that remain are in pairs with
contracts that can be written, and if it fetches an asset, the contract of that can be written. -/
structure Meets (lib : Library) (w : World) (s : State) (p : Params) : Prop where
  removed : ∀ e, Removes lib w s p e → Paired s.config.policyAsset (e.on s).assets
  fetched : ∀ d, Fetches lib w s p d → d.contract.Canonical ∧ d.tokenId ≠ d.assetId

/-- The runs, from a server without file, whose requests meet the condition. No emulator is used and
every software signer is to be saved. Between two requests the order of the maps may change. -/
inductive RestartRun (lib : Library) (config : Config) : Server → Prop
  | start : RestartRun lib config (.start config)
  | reorder {srv : Server} {t : State} (hrun : RestartRun lib config srv)
      (hsame : srv.state.Same t) (hpersist : t.doPersist = srv.state.doPersist) :
      RestartRun lib config { srv with state := t }
  | handle {srv : Server} {w : World} {r : Request} (hrun : RestartRun lib config srv)
      (hr : r.params.Plain) (hmeets : Meets lib w srv.state r.params) :
      RestartRun lib config (srv.next lib w r)

structure Restartable (lib : Library) (config : Config) (srv : Server) : Prop where
  lock : srv.poisoned = false
  persists : srv.state.doPersist = true
  valid : Valid lib config srv.state
  adds : ∀ line ∈ srv.file, line.params.Adds
  replays : ∀ w, ∃ t, replay lib w srv.file (.new config) = .ok t ∧ srv.state.Same t

section Runs

variable {lib : Library} {config : Config} {w : World} {srv : Server} {s t : State} {r : Request}
  {e : Effect} {d : RegistryAssetData}

theorem restores_iff_replays (hadds : ∀ line ∈ srv.file, line.params.Adds) :
    Restores lib config srv ↔
      ∀ w, ∃ t, replay lib w srv.file (.new config) = .ok t ∧ srv.state.Same t := by
  refine forall_congr' fun w => ?_
  simp only [run_ok_iff hadds]
  constructor
  · rintro ⟨srv', ⟨t, ht, rfl⟩, hsame, -⟩
    exact ⟨t, ht, { hsame with }⟩
  · rintro ⟨t, ht, hsame⟩
    exact ⟨_, ⟨t, ht, rfl⟩, { hsame with }, rfl⟩

theorem Restartable.restores (h : Restartable lib config srv) : Restores lib config srv :=
  (restores_iff_replays h.adds).2 h.replays

theorem signer_request_adds {name : String} {signer : AppSigner}
    (h : signer.Reloads lib config) : (signer.request lib name).params.Adds := by
  obtain ⟨inner, keep⟩ := signer
  cases inner with
  | jadeId id => exact rfl
  | externalSigner f => trivial
  | availableSigner any =>
    cases any with
    | jade id => exact False.elim h
    | software sw =>
      obtain ⟨m, xprv, -, hsigner⟩ := newSw_ok h
      cases hsigner
      exact rfl

theorem Valid.adds (hs : Valid lib config s) : ∀ line ∈ s.asRequests lib, line.params.Adds := by
  intro line hline
  obtain ⟨entry, hentry, rfl⟩ := mem_asRequests_iff.1 hline
  have hreloads := hs.reloads entry hentry
  cases hentry with
  | signer h => exact signer_request_adds hreloads
  | _ => trivial

theorem reloaded_same_iff : s.Same s.reloaded ↔ HashMap.Same s.assets s.reloaded.assets := by
  constructor
  · exact fun h => h.assets
  · intro h
    exact ⟨rfl, same_ofPairs _, same_ofPairs _, h, same_setAll _, same_setAll _⟩

/-! ## One request -/

theorem fetches_outcome (h : Fetches lib w s r.params d) : outcome lib w s r = .ok (.addAsset d,
      if d.tokenId = d.assetId then .poison else .append (insertRequest lib d)) := by
  obtain ⟨assetId, id, hparams, hid, hnew, hd⟩ := h
  obtain ⟨unread, params⟩ := r
  cases hparams
  by_cases hcollide : d.tokenId = d.assetId
  · rw [if_pos hcollide]
    exact Outcome.ok (.assetCollides hid hnew hd hcollide)
  · rw [if_neg hcollide]
    exact Outcome.ok (.assetFromRegistry hid hnew hd hcollide)

theorem NoCollision.removed {p : Params} (hids : NoCollision config.policyAsset s.assets)
    (h : Removes lib w s p e) : NoCollision config.policyAsset (e.on s).assets := by
  have hbefore {id : AssetId} {asset : AppAsset} (hid : (e.on s).assets.lookup id = some asset) :
      s.assets.lookup id = some asset := by
    cases h with
    | wollet h => exact hid
    | signer h hprint => exact hid
    | asset h h' => exact (lookup_of_erase hid).2
  exact ⟨fun id d hid => hids.policy id d (hbefore hid),
    fun id d id' d' hid hid' => hids.kinds id d id' d' (hbefore hid) (hbefore hid'),
    fun id d id' d' hid hid' => hids.tokens id d id' d' (hbefore hid) (hbefore hid')⟩

theorem meets_of_adds {p : Params} (h : p.Adds) : Meets lib w s p := by
  refine ⟨fun e hremoves => ?_, fun d hfetches => ?_⟩
  · cases hremoves <;> exact False.elim h
  · obtain ⟨assetId, id, rfl, -⟩ := hfetches
    exact False.elim h

section Step

variable {line : Request} (h : Restartable lib config srv)

include h

theorem Restartable.file_append :
    (srv.after lib (e, .append line)).file = srv.file ++ [line] := by
  simp [Server.after, h.persists]

theorem Restartable.adds_append (hline : line.params.Adds) :
    ∀ line' ∈ (srv.after lib (e, .append line)).file, line'.params.Adds := by
  rw [h.file_append]
  intro line' hline'
  rcases List.mem_append.1 hline' with hline' | hline'
  · exact h.adds line' hline'
  · rw [List.mem_singleton.1 hline']
    exact hline

theorem restartable_append (hvalid : Valid lib config (e.on srv.state)) (hline : line.params.Adds)
    (ho : ∀ w t, srv.state.Same t → ∃ write, outcome lib w t line = .ok (e, write)) :
    Restartable lib config (srv.after lib (e, .append line)) := by
  refine ⟨h.lock, (e.on_doPersist _).trans h.persists, hvalid, h.adds_append hline, fun w => ?_⟩
  obtain ⟨t, ht, hsame⟩ := h.replays w
  obtain ⟨write, ho⟩ := ho w t hsame
  refine ⟨e.on t, ?_, e.on_same hsame⟩
  rw [h.file_append, replay_append, ht]
  exact replay_cons_ok_iff.2 ⟨_, ho, rfl⟩

theorem restartable_rewrite (hvalid : Valid lib config (e.on srv.state))
    (hpaired : Paired config.policyAsset (e.on srv.state).assets) :
    Restartable lib config (srv.after lib (e, .rewrite)) := by
  refine ⟨h.lock, (e.on_doPersist _).trans h.persists, hvalid, hvalid.adds, fun w => ?_⟩
  refine ⟨(e.on srv.state).reloaded, (replay_asRequests_iff hvalid).2 ⟨fun d hd => ?_, rfl⟩,
    reloaded_same_iff.2 (hpaired.same hvalid)⟩
  rw [Registry.Contract.canonical_eq_iff.2 (hpaired.canonical d hd)]

variable (hlib : lib.RoundTrips) (hr : r.params.Plain)

include hlib hr

/-- **A request that meets the condition.** -/
theorem Restartable.next (hmeets : Meets lib w srv.state r.params) :
    Restartable lib config (srv.next lib w r) := by
  rw [next_eq h.lock]
  cases ho : outcome lib w srv.state r with
  | error err => exact h
  | ok o =>
    obtain ⟨e, write⟩ := o
    obtain ⟨haccepted, hkind⟩ := outcome_kinds h.valid hr ho
    have hreloads (entry : Entry) (hadds : e.adds = some entry) : entry.Reloads lib config :=
      outcome_reloads hlib h.valid.config_eq hr ho hadds
    have hvalid := h.valid.on haccepted hreloads
    rcases hkind with ⟨hadds, rfl⟩ | ⟨hremoves, rfl⟩ | ⟨d, hfetches, rfl, hwrite⟩
    · exact restartable_append h hvalid hadds fun w' t hsame =>
        ⟨_, outcome_same hsame (outcome_world hlib h.valid hadds ho)⟩
    · have hpaired := hmeets.removed e hremoves
      rw [h.valid.config_eq] at hpaired
      exact restartable_rewrite h hvalid hpaired
    · obtain ⟨hcanonical, hne⟩ := hmeets.fetched d hfetches
      rw [if_neg hne] at hwrite
      subst hwrite
      -- the contract is written as it was fetched, so the line inserts the same data
      refine restartable_append h hvalid trivial fun w' t _ => ⟨.append (insertRequest lib d), ?_⟩
      rw [outcome_asset_iff (hreloads _ rfl), reread_eq_iff.2 hcanonical,
        Registry.Contract.canonical_eq_iff.2 hcanonical]
      exact ⟨rfl, rfl⟩

theorem paired_of_restores (hids : NoCollision config.policyAsset srv.state.assets)
    (hremoves : Removes lib w srv.state r.params e)
    (hrestores : Restores lib config (srv.next lib w r)) :
    Paired config.policyAsset (e.on srv.state).assets := by
  have ho := outcome_rewrite_iff.2 hremoves
  have hvalid := h.valid.on (outcome_kinds h.valid hr ho).1 fun entry hadds =>
    outcome_reloads hlib h.valid.config_eq hr ho hadds
  rw [next_eq h.lock, ho, restores_iff_replays hvalid.adds] at hrestores
  obtain ⟨t, ht, hsame⟩ := hrestores w
  obtain ⟨-, rfl⟩ := (replay_asRequests_iff hvalid).1 ht
  exact paired_of_same hvalid (reloaded_same_iff.1 hsame) (hids.removed hremoves)

theorem canonical_of_restores (hfetches : Fetches lib w srv.state r.params d)
    (hrestores : Restores lib config (srv.next lib w r)) :
    d.contract.Canonical ∧ d.tokenId ≠ d.assetId := by
  have ho := fetches_outcome hfetches
  have hreloads := outcome_reloads hlib h.valid.config_eq hr ho rfl
  obtain ⟨assetId, id, -, -, hnew, hd⟩ := hfetches
  have hid : d.assetId = id := fetchData_assetId hd
  have hnone : srv.state.assets.lookup d.assetId = none := by
    rw [hid]
    exact AList.lookup_eq_none.2 hnew
  obtain ⟨t, ht, hsame⟩ := h.replays w
  rw [next_eq h.lock, ho] at hrestores
  by_cases hcollide : d.tokenId = d.assetId
  · -- the handler stops before anything is written
    rw [if_pos hcollide, restores_iff_replays (by exact h.adds)] at hrestores
    obtain ⟨t', ht', hsame'⟩ := hrestores w
    cases ht.symm.trans ht'
    have hafter : (srv.state.assets.insertData d).lookup d.assetId = t.assets.lookup d.assetId :=
      hsame'.assets d.assetId
    rw [← hsame.assets, hnone, lookup_insertData, ← hcollide, if_pos rfl] at hafter
    cases hafter
  · rw [if_neg hcollide] at hrestores
    have hline : (insertRequest lib d).params.Adds := trivial
    rw [restores_iff_replays (h.adds_append hline)] at hrestores
    obtain ⟨t', ht', hsame'⟩ := hrestores w
    rw [h.file_append, replay_append, ht] at ht'
    obtain ⟨o, ho, ht'⟩ := replay_cons_ok_iff.1 ht'
    obtain ⟨-, rfl⟩ := (outcome_asset_iff hreloads).1 ho
    cases ht'
    -- the token carries the contract, and the line gives it the one that was written
    have htoken : (srv.state.assets.insertData d).lookup d.tokenId =
        (t.assets.insertData (reread d)).lookup d.tokenId := hsame'.assets d.tokenId
    have hid : d.tokenId = (reread d).tokenId := rfl
    rw [lookup_insertData, lookup_insertData, if_pos rfl, if_pos hid] at htoken
    have hreread : d = reread d := AppAsset.reissuanceToken.inj (Option.some.inj htoken)
    exact ⟨reread_eq_iff.1 hreread.symm, hcollide⟩

end Step

theorem RestartRun.restartable (hlib : lib.RoundTrips) (hrun : RestartRun lib config srv) :
    Restartable lib config srv := by
  induction hrun with
  | start =>
    refine ⟨rfl, rfl, .start, (fun _ h => nomatch h), fun w => ?_⟩
    exact ⟨_, replay_nil, { State.Same.refl (.new config) with }⟩
  | reorder hrun hsame hpersist ih =>
    refine ⟨ih.lock, hpersist.trans ih.persists, ih.valid.same hsame, ih.adds, fun w => ?_⟩
    obtain ⟨t, ht, h⟩ := ih.replays w
    exact ⟨t, ht, hsame.symm.trans h⟩
  | handle hrun hr hmeets ih => exact ih.next hlib hr hmeets

end Runs

/-! ## A server with assets -/

theorem TextForm.single_roundTrips {α : Type} (text : String) (a : α) :
    (TextForm.single text a).RoundTrips := by
  intro s a' h
  by_cases hs : s = text
  · cases (if_pos hs).symm.trans h
    exact if_pos rfl
  · cases (if_neg hs).symm.trans h

namespace SampleServer

def contractFields : Registry.ContractFields where
  entity := .domain "example.com"
  issuerPubkey := [2]
  name := "Gold"
  precision := 2
  ticker := "GLD"
  version := 0

def describedContract : Json :=
  .obj [("description", .str "a coin"), ("entity", .obj [("domain", .str "example.com")]),
    ("issuer_pubkey", .str "02"), ("name", .str "Gold"), ("precision", .int 2),
    ("ticker", .str "GLD"), ("version", .int 0)]

def issuanceTx : Transaction where
  input := [⟨⟨0, 0⟩, ⟨.zero, 6, .explicit 1, .explicit 1⟩⟩,
    ⟨⟨0, 1⟩, ⟨.zero, 7, .explicit 1, .explicit 1⟩⟩]
  output := []

/-- A library that knows the texts of the two contracts. The hash of one is its number of fields,
and the assets have the ids 6 and 7. -/
def assetLibrary : Library :=
  { library with
    hashing :=
      { issuance := ⟨fun _ hash => hash, fun entropy => entropy, fun entropy _ => entropy + 100⟩
        contractJsonHash := fun v =>
          match v with
          | .obj l => .ofNat 256 l.length
          | _ => 0
        jsonFromStr := fun s =>
          if s = "plain" then some contractFields.toValue
          else if s = "described" then some describedContract
          else none
        jsonToString := fun _ => "plain" }
    assetId :=
      { fromStr := fun s =>
          if s = "06" then .ok 6 else if s = "07" then .ok 7 else .error "unknown"
        toStr := fun id => if id = 6 then "06" else "07" }
    transaction := .single "tx" issuanceTx }

def insertPlain : Request := .made (.assetInsert "06" "plain" "tx")

def insertDescribed : Request := .made (.assetInsert "07" "described" "tx")

def removePlain : Request := .made (.assetRemove "06")

def assetServer (insert : Request) : Server :=
  ((Server.start config).next assetLibrary world loadWallet).next assetLibrary world insert

theorem assetLibrary_roundTrips : assetLibrary.RoundTrips where
  descriptor := TextForm.single_roundTrips _ _
  mnemonic _ _ _ := rfl
  fingerprint := TextForm.single_roundTrips _ _
  xkeyIdentifier := TextForm.single_roundTrips _ _
  txid := TextForm.single_roundTrips _ _
  address := TextForm.single_roundTrips _ _
  assetId s id h := by
    by_cases hplain : s = "06"
    · cases (if_pos hplain).symm.trans h
      decide
    · by_cases hdescribed : s = "07"
      · cases ((if_neg hplain).trans (if_pos hdescribed)).symm.trans h
        decide
      · cases ((if_neg hplain).trans (if_neg hdescribed)).symm.trans h
  transaction := TextForm.single_roundTrips _ _
  contract s v f hv hf := by
    have hfields : f = contractFields := by
      by_cases hplain : s = "plain"
      · cases (if_pos hplain).symm.trans hv
        rw [Registry.ContractFields.fromValue_toValue] at hf
        exact (Option.some.inj hf).symm
      · by_cases hdescribed : s = "described"
        · cases ((if_neg hplain).trans (if_pos hdescribed)).symm.trans hv
          have hread :
              Registry.ContractFields.fromValue describedContract = some contractFields := by
            decide
          exact Option.some.inj (hf.symm.trans hread)
        · cases ((if_neg hplain).trans (if_neg hdescribed)).symm.trans hv
    rw [hfields]
    rfl

def plainData : RegistryAssetData where
  assetId := 6
  tokenId := 106
  issuanceVin := 0
  issuanceTx := issuanceTx
  contract := ⟨contractFields, some contractFields.toValue⟩

theorem paired_assetServer : Paired config.policyAsset (assetServer insertPlain).state.assets := by
  have hassets : (assetServer insertPlain).state.assets =
      (State.new config).assets.insertData plainData := rfl
  rw [hassets]
  refine paired_new.insertData rfl (by decide) ?_ ?_
  · rw [lookup_new_assets, if_neg (by decide)]
  · rw [lookup_new_assets, if_neg (by decide)]

theorem meets_unloadWallet :
    Meets assetLibrary world (assetServer insertPlain).state unloadWallet.params := by
  refine ⟨fun e hremoves => ?_, fun d hfetches => ?_⟩
  · cases hremoves
    exact paired_assetServer
  · obtain ⟨assetId, id, hparams, -⟩ := hfetches
    cases hparams

end SampleServer

/-- **A server restarts as it was** at every point of a run whose requests meet the condition. A
request that does not meet it ends that, unless ids of assets collide. -/
theorem restart_restores_iff {lib : Library} {config : Config} {w : World} {srv : Server}
    {r : Request} (hlib : lib.RoundTrips) (hrun : RestartRun lib config srv) (hr : r.params.Plain) :
    Restores lib config srv ∧
      (Meets lib w srv.state r.params → Restores lib config (srv.next lib w r)) ∧
      (NoCollision config.policyAsset srv.state.assets →
        Restores lib config (srv.next lib w r) → Meets lib w srv.state r.params) := by
  have h := hrun.restartable hlib
  refine ⟨h.restores, fun hmeets => (h.next hlib hr hmeets).restores, fun hids hrestores => ?_⟩
  constructor
  · intro e hremoves
    rw [h.valid.config_eq]
    exact paired_of_restores h hlib hr hids hremoves hrestores
  · intro d hfetches
    exact canonical_of_restores h hlib hr hfetches hrestores

namespace SampleServer

/-- The server with the plain asset restarts as it was, also after the wallet is unloaded. -/
theorem assetServer_restores : Restores assetLibrary config (assetServer insertPlain) ∧
      Restores assetLibrary config
        ((assetServer insertPlain).next assetLibrary world unloadWallet) := by
  have hrun : RestartRun assetLibrary config (assetServer insertPlain) :=
    .handle (.handle .start trivial (meets_of_adds trivial)) trivial (meets_of_adds trivial)
  have h := restart_restores_iff (w := world) (r := unloadWallet) assetLibrary_roundTrips hrun
    trivial
  exact ⟨h.1, h.2.1 meets_unloadWallet⟩

/-- **The token of a removed asset is lost, and an asset with a described contract keeps the server
from starting.** -/
theorem restart_loses_assets : assetLibrary.RoundTrips ∧
      (∀ r ∈ [loadWallet, insertPlain, insertDescribed, removePlain, unloadWallet],
        r.params.Plain) ∧
      (∃ srv, srv = (assetServer insertPlain).next assetLibrary world removePlain ∧
        srv.state.assets.lookup plainData.tokenId = some (.reissuanceToken plainData) ∧
        srv.file = [loadWallet] ∧ ¬ Restores assetLibrary config srv) ∧
      ∃ srv, srv = (assetServer insertDescribed).next assetLibrary world unloadWallet ∧
        run assetLibrary world config srv.file =
          .error (.startStateLoad (.registry .contractDoesNotCommitToAssetId) 1) ∧
        ¬ Restores assetLibrary config srv := by
  refine ⟨assetLibrary_roundTrips, ?_, ⟨_, rfl, rfl, by decide, fun h => ?_⟩,
    ⟨_, rfl, rfl, fun h => ?_⟩⟩
  · intro r hr
    simp only [List.mem_cons, List.not_mem_nil, or_false] at hr
    rcases hr with rfl | rfl | rfl | rfl | rfl <;> trivial
  · obtain ⟨srv, hrun, hsame, -⟩ := h world
    have hlost : (run assetLibrary world config
        ((assetServer insertPlain).next assetLibrary world removePlain).file).map
          (fun srv => srv.state.assets.lookup plainData.tokenId) = .ok none := rfl
    rw [hrun] at hlost
    have htoken := (hsame.assets plainData.tokenId).trans (Except.ok.inj hlost)
    cases htoken
  · obtain ⟨srv, hrun, -⟩ := h world
    cases hrun

end SampleServer

end Swk.App
