import Swk.Contract
import Swk.HashMap

/-!
# The cache of the asset registry

`RegistryCache::new` asks the registry for the metadata of a list of assets, many at a time, and
keeps the answers as they come in, in any order. An answer determines the ids of an asset and of its
token, by the contract and the output that the issuance spends.

Nothing compares those ids with the one that was asked for. So the cache serves what belongs to the
asset, whatever the order, exactly when the registry is honest (`cache_bound_iff`): every answer is
that of the asset it was asked for, and two answers for one asset name one token. The second part
matters when an asset is listed twice: its token is then filed under the first answer, and found
with the second.
-/

namespace Swk.Registry

open List HashMap

/-- `RegistryData`. The outpoint is the one that the issuance spends. -/
structure RegistryData where
  contract : Contract
  issuanceTxin : Txid × UInt32
  issuancePrevout : OutPoint

namespace RegistryData

variable (h : Hashing) (d : RegistryData)

def entropy : Except Error (BitVec 256) :=
  .ok (h.issuance.generateAssetEntropy d.issuancePrevout (d.contract.contractHash h))

def assetId : Except Error AssetId := do
  let entropy ← d.entropy h
  pure (h.issuance.fromEntropy entropy)

def tokenId : Except Error AssetId := do
  let entropy ← d.entropy h
  pure (h.issuance.reissuanceTokenFromEntropy entropy false)

end RegistryData

/-- The entries of `init_cache`, constants of the source: the policy assets of the networks, and the
asset that has a token. -/
structure Hardcoded where
  lbtc : AssetId × RegistryData
  tlbtc : AssetId × RegistryData
  rlbtc : AssetId × RegistryData
  usdt : AssetId × RegistryData

def Hardcoded.entries (c : Hardcoded) : List (AssetId × RegistryData) :=
  [c.lbtc, c.tlbtc, c.rlbtc, c.usdt]

def Hardcoded.ids (c : Hardcoded) : List AssetId := c.entries.map (·.1)

/-- `RegistryCache`, without the client. -/
structure RegistryCache where
  cache : HashMap AssetId RegistryData
  tokenCache : HashMap AssetId AssetId

namespace RegistryCache

/-- An asset that was asked for, and the answer if there is one. -/
abbrev Fetched := AssetId × Option RegistryData

variable (h : Hashing) (c : Hardcoded)

/-- `tokenCache` after an answer. -/
def fileToken (m : HashMap AssetId AssetId) (id : AssetId) (d : RegistryData) :
    HashMap AssetId AssetId :=
  match d.tokenId h with
  | .ok tokenId => m.insert tokenId id
  | .error _ => m

/-- `init_cache`. -/
def init : RegistryCache :=
  ⟨.ofPairs c.entries, fileToken h ∅ c.usdt.1 c.usdt.2⟩

def insert (h : Hashing) (cache : RegistryCache) (e : Fetched) : RegistryCache :=
  match e.2 with
  | some d => ⟨cache.cache.insert e.1 d, fileToken h cache.tokenCache e.1 d⟩
  | none => cache

/-- What is asked for, with the answer to each request. -/
def fetched (assetIds : List AssetId) (answer : Nat → Option RegistryData) : List Fetched :=
  (assetIds.filter (· ∉ c.ids)).zipIdx.map fun e => (e.1, answer e.2)

/-- `RegistryCache::new`, of the answers in the order they come in. -/
def new (completed : List Fetched) : RegistryCache :=
  completed.foldl (insert h) (init h c)

def get (cache : RegistryCache) (assetId : AssetId) : Option RegistryData :=
  cache.cache.lookup assetId

def getAssetOfToken (cache : RegistryCache) (tokenId : AssetId) : Option RegistryData :=
  (cache.tokenCache.lookup tokenId).bind cache.cache.lookup

/-! ## What the cache serves -/

/-- The cache serves what belongs to an asset and to a token. -/
structure Bound (h : Hashing) (c : Hardcoded) (cache : RegistryCache) : Prop where
  asset : ∀ a d, a ∉ c.ids → cache.get a = some d → d.assetId h = .ok a
  token : ∀ t d, cache.getAssetOfToken t = some d → d.tokenId h = .ok t

/-- Every answer is that of the asset it was asked for, and answers for one asset name one token. -/
structure Honest (h : Hashing) (l : List Fetched) : Prop where
  asset : ∀ a d, (a, some d) ∈ l → d.assetId h = .ok a
  token : ∀ a d d', (a, some d) ∈ l → (a, some d') ∈ l → d.tokenId h = d'.tokenId h

section Answers

variable {h : Hashing} {c : Hardcoded} {l : List Fetched}

def tokenOf (h : Hashing) (d : RegistryData) : AssetId :=
  h.issuance.reissuanceTokenFromEntropy
    (h.issuance.generateAssetEntropy d.issuancePrevout (d.contract.contractHash h)) false

def byAsset (l : List Fetched) : List (AssetId × RegistryData) :=
  l.filterMap fun e => e.2.map (e.1, ·)

def byToken (h : Hashing) (l : List Fetched) : List (AssetId × AssetId) :=
  l.filterMap fun e => e.2.map fun d => (tokenOf h d, e.1)

theorem byAsset_append (l l' : List Fetched) : byAsset (l ++ l') = byAsset l ++ byAsset l' :=
  filterMap_append

theorem byToken_append (l l' : List Fetched) : byToken h (l ++ l') = byToken h l ++ byToken h l' :=
  filterMap_append

variable {a t : AssetId} {d : RegistryData}

theorem mem_byAsset : (a, d) ∈ byAsset l ↔ (a, some d) ∈ l := by
  simp [byAsset]

theorem mem_byToken :
    (t, a) ∈ byToken h l ↔ ∃ d, (a, some d) ∈ l ∧ tokenOf h d = t := by
  simp only [byToken, mem_filterMap, Option.map_eq_some_iff, Prod.mk.injEq, Prod.exists]
  constructor
  · rintro ⟨_, _, hmem, d, rfl, ht, rfl⟩
    exact ⟨d, hmem, ht⟩
  · rintro ⟨d, hmem, ht⟩
    exact ⟨a, some d, hmem, d, rfl, ht, rfl⟩

theorem new_eq : new h c l = ⟨HashMap.extend (.ofPairs c.entries) (byAsset l),
      HashMap.extend (.ofPairs [(tokenOf h c.usdt.2, c.usdt.1)]) (byToken h l)⟩ := by
  unfold new
  induction l using reverseRecOn with
  | nil => rfl
  | append_singleton l e ih =>
    obtain ⟨a, answer⟩ := e
    rw [foldl_append, ih, byAsset_append, byToken_append, extend_append, extend_append]
    cases answer <;> rfl

theorem get_new (a : AssetId) : (new h c l).get a =
    (HashMap.lastValue a (byAsset l)).or (HashMap.lastValue a c.entries) := by
  rw [get, new_eq, lookup_extend, lookup_ofPairs]

theorem lookup_tokenCache (t : AssetId) : (new h c l).tokenCache.lookup t =
    (HashMap.lastValue t (byToken h l)).or
      (HashMap.lastValue t [(tokenOf h c.usdt.2, c.usdt.1)]) := by
  rw [new_eq, lookup_extend, lookup_ofPairs]

theorem getAssetOfToken_eq_some :
    (new h c l).getAssetOfToken t = some d ↔
      ∃ a, (new h c l).tokenCache.lookup t = some a ∧ (new h c l).get a = some d :=
  Option.bind_eq_some_iff

/-! ## Honest answers -/

theorem mem_of_get (ha : a ∉ c.ids) (hget : (new h c l).get a = some d) : (a, some d) ∈ l := by
  rw [get_new, Option.or_eq_some_iff] at hget
  rcases hget with hlast | ⟨-, hentry⟩
  · exact mem_byAsset.1 (mem_of_lastValue hlast)
  · exact absurd (mem_map_of_mem (mem_of_lastValue hentry)) ha

theorem get_usdt (hids : ∀ e ∈ l, e.1 ∉ c.ids) : (new h c l).get c.usdt.1 = some c.usdt.2 := by
  have hnone : lastValue c.usdt.1 (byAsset l) = none := by
    refine lastValue_eq_none.2 fun e he heq => ?_
    refine hids _ (mem_byAsset.1 he) ?_
    rw [show e.1 = c.usdt.1 from heq]
    simp [Hardcoded.ids, Hardcoded.entries]
  rw [get_new, hnone]
  simp [Hardcoded.entries, lastValue]

theorem Honest.bound (hhonest : Honest h l) (hids : ∀ e ∈ l, e.1 ∉ c.ids) :
    Bound h c (new h c l) where
  asset a d ha hget := hhonest.asset a d (mem_of_get ha hget)
  token t d hserved := by
    obtain ⟨a, htoken, hget⟩ := getAssetOfToken_eq_some.1 hserved
    rw [lookup_tokenCache, Option.or_eq_some_iff] at htoken
    rcases htoken with hlast | ⟨-, husdt⟩
    · obtain ⟨d', hmem, rfl⟩ := mem_byToken.1 (mem_of_lastValue hlast)
      rw [hhonest.token a d d' (mem_of_get (hids _ hmem) hget) hmem]
      rfl
    · cases mem_singleton.1 (mem_of_lastValue husdt)
      rw [get_usdt hids] at hget
      cases hget
      rfl

/-! ## Other answers -/

theorem get_last (a : AssetId) (d : RegistryData) :
    (new h c (l ++ [(a, some d)])).get a = some d := by
  rw [get_new, byAsset_append, lastValue_append]
  simp [byAsset, lastValue]

theorem perm_last {x : Fetched} (hx : x ∈ l) : ∃ l', (l' ++ [x]).Perm l := by
  obtain ⟨l₁, l₂, rfl⟩ := append_of_mem hx
  refine ⟨l₁ ++ l₂, ?_⟩
  rw [append_assoc]
  exact List.Perm.append_left l₁ (perm_append_singleton x l₂)

theorem Honest.of_bound (hbound : ∀ l', l'.Perm l → Bound h c (new h c l'))
    (hids : ∀ e ∈ l, e.1 ∉ c.ids) : Honest h l where
  asset a d hmem := by
    obtain ⟨l', hperm⟩ := perm_last hmem
    exact (hbound _ hperm).asset a d (hids _ hmem) (get_last a d)
  token a d d' hmem hmem' := by
    by_cases heq : d = d'
    · rw [heq]
    -- the two answers come in last, so the token of the first is filed and the second is served
    obtain ⟨l₁, hperm⟩ := perm_last hmem'
    have hfirst : (a, some d) ∈ l₁ := by
      rcases mem_append.1 (hperm.symm.subset hmem) with hin | hin
      · exact hin
      · cases mem_singleton.1 hin
        exact absurd rfl heq
    obtain ⟨l₂, hperm₂⟩ := perm_last hfirst
    have hall := (hperm₂.append_right [(a, some d')]).trans hperm
    have htoken : (new h c (l₂ ++ [(a, some d)] ++ [(a, some d')])).tokenCache.lookup
        (tokenOf h d) = some a := by
      rw [lookup_tokenCache, byToken_append, byToken_append, lastValue_append, lastValue_append]
      by_cases hsame : tokenOf h d' = tokenOf h d <;> simp [byToken, lastValue, hsame]
    exact ((hbound _ hall).token (tokenOf h d) d'
      (getAssetOfToken_eq_some.2 ⟨a, htoken, get_last a d'⟩)).symm

end Answers

/-- **The cache serves what assets commit to**, in whatever order the answers come in, if and only
if the registry is honest. -/
theorem cache_bound_iff (h : Hashing) (c : Hardcoded) (assetIds : List AssetId)
    (answer : Nat → Option RegistryData) :
    (∀ completed, completed.Perm (fetched c assetIds answer) → Bound h c (new h c completed)) ↔
      Honest h (fetched c assetIds answer) := by
  have hids : ∀ e ∈ fetched c assetIds answer, e.1 ∉ c.ids := by
    intro e he
    obtain ⟨⟨a, k⟩, hmem, rfl⟩ := mem_map.1 he
    simpa using (mem_filter.1 (fst_mem_of_mem_zipIdx hmem)).2
  constructor
  · intro hbound
    exact Honest.of_bound hbound hids
  · intro hhonest completed hperm
    refine Honest.bound ⟨?_, ?_⟩ fun e he => hids e (hperm.subset he)
    · intro a d hmem
      exact hhonest.asset a d (hperm.subset hmem)
    · intro a d d' hmem hmem'
      exact hhonest.token a d d' (hperm.subset hmem) (hperm.subset hmem')

namespace Dishonest

def hashing : Hashing where
  issuance := ⟨fun prevout _ => .ofNat 256 prevout.vout, id, fun entropy _ => entropy + 100⟩
  contractJsonHash _ := 0
  jsonFromStr _ := none
  jsonToString _ := ""

def data (n : Nat) : RegistryData where
  contract := .fromParts (.domain "") [] "" 0 "" 0
  issuanceTxin := (0, 0)
  issuancePrevout := ⟨0, n⟩

def hardcoded : Hardcoded := ⟨(1, data 1), (2, data 2), (3, data 3), (4, data 4)⟩

def cache : RegistryCache :=
  new hashing hardcoded (fetched hardcoded [5, 5] fun k => some (data (5 + k)))

/-- The data of the asset 6 is served for the asset 5, and for the token of the asset 5. -/
theorem serves_another_asset : cache.get 5 = some (data 6) ∧ (data 6).assetId hashing = .ok 6 ∧
      cache.getAssetOfToken 105 = some (data 6) ∧ (data 6).tokenId hashing = .ok 106 :=
  ⟨rfl, rfl, rfl, rfl⟩

end Dishonest

end RegistryCache

end Swk.Registry
