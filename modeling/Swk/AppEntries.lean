import Swk.AppHandler

/-!
# The content of the server's state

The maps of the server have no order anybody may rely on, so two states are as good as equal when
they have the same content (`State.Same`). `Outcome` has a case for each way a request passes its
checks, and everything about requests is read off it; in particular a request does the same to both
states (`outcome_same`, `Effect.on_same`).

The content of a state is a set of entries, one for each line `as_requests` would write
(`mem_asRequests_iff`). The entry of a reissuance token is not among them: it goes with its asset. A
change adds at most one entry (`State.Holds.of_on`).
-/

namespace Swk.App

open AList

open Boltz (XKeyIdentifier)
open Registry (RegistryAssetData)

/-! ## The order of the maps does not matter -/

namespace Memos

variable {K : Type} [DecidableEq K]

theorem forWollet_set (m : Memos K) (wollet : String) (k : K) (memo : String) (n : String) :
    (m.set wollet k memo).forWollet n =
      if n = wollet then (m.forWollet wollet).insert k memo else m.forWollet n := by
  rw [set_eq]
  by_cases hn : n = wollet
  · rw [if_pos hn, hn, forWollet, lookup_insert, Option.getD_some]
  · rw [if_neg hn, forWollet, lookup_insert_ne hn]
    rfl

omit [DecidableEq K] in
theorem forWollet_erase (m : Memos K) (wollet n : String) :
    Memos.forWollet (AList.erase wollet m) n = if n = wollet then ∅ else m.forWollet n := by
  by_cases hn : n = wollet
  · rw [if_pos hn, hn, forWollet, lookup_erase]
    rfl
  · rw [if_neg hn, forWollet, forWollet, lookup_erase_ne hn]

end Memos

section Same

variable {lib : Library} {w : World} {s t : State} {r line : Request} {e : Effect} {write : Write}
  {o : Effect × Write}

variable {K V : Type}

variable {m m' : HashMap K V} {signer : AppSigner} {k k' : K} {v : V} {n n' memo : String}

theorem same_insert [DecidableEq K] (h : HashMap.Same m m') (k : K) (v : V) :
    HashMap.Same (AList.insert k v m) (AList.insert k v m') :=
  h.extend [(k, v)]

theorem same_erase [DecidableEq K] (h : HashMap.Same m m') (k : K) :
    HashMap.Same (AList.erase k m) (AList.erase k m') := by
  intro k'
  by_cases hk : k' = k
  · rw [hk, lookup_erase, lookup_erase]
  · rw [lookup_erase_ne hk, lookup_erase_ne hk, h k']

theorem memos_same_set [DecidableEq K] {m m' : Memos K} (h : m.Same m') (n : String)
    (k : K) (memo : String) : (m.set n k memo).Same (m'.set n k memo) := by
  intro n'
  rw [Memos.forWollet_set, Memos.forWollet_set]
  by_cases hn : n' = n
  · rw [if_pos hn, if_pos hn]
    exact same_insert (h n) k memo
  · rw [if_neg hn, if_neg hn]
    exact h n'

theorem memos_same_erase [DecidableEq K] {m m' : Memos K} (h : m.Same m')
    (n : String) : Memos.Same (AList.erase n m) (AList.erase n m') := by
  intro n'
  rw [Memos.forWollet_erase, Memos.forWollet_erase]
  by_cases hn : n' = n
  · rw [if_pos hn, if_pos hn]
  · rw [if_neg hn, if_neg hn]
    exact h n'

theorem Effect.on_same (e : Effect) (h : s.Same t) : (e.on s).Same (e.on t) := by
  cases e with
  | addWollet name d => exact { h with wollets := same_insert h.wollets name d }
  | dropWollet name =>
    exact { h with
      wollets := same_erase h.wollets name
      txMemos := memos_same_erase h.txMemos name
      addrMemos := memos_same_erase h.addrMemos name }
  | addSigner name signer => exact { h with signers := same_insert h.signers name signer }
  | dropSigner name => exact { h with signers := same_erase h.signers name }
  | setTxMemo name txid memo => exact { h with txMemos := memos_same_set h.txMemos name txid memo }
  | setAddrMemo name address memo =>
    exact { h with addrMemos := memos_same_set h.addrMemos name address memo }
  | addAsset d => exact { h with assets := same_insert (same_insert h.assets _ _) _ _ }
  | dropAsset id => exact { h with assets := same_erase h.assets id }

/-! ## What a request does -/

/-- The outcomes of requests, with a case for each way a request passes its checks. -/
inductive Outcome (lib : Library) (w : World) (s : State) : Request → Effect → Write → Prop
  | walletLoad {unread : List String} {descriptor name : String} {d : WolletDescriptor}
      (hopen : openWollet lib s.config descriptor = .ok d)
      (hfits : Fits (firstAddr lib) s.wollets name d) :
      Outcome lib w s ⟨unread, .walletLoad descriptor name⟩ (.addWollet name d)
        (.append ⟨unread, .walletLoad descriptor name⟩)
  | walletUnload {unread : List String} {name : String} {d : WolletDescriptor}
      (hd : s.wollets.lookup name = some d) :
      Outcome lib w s ⟨unread, .walletUnload name⟩ (.dropWollet name) .rewrite
  | signerLoadSoftware {unread : List String} {name mnemonic : String} {signer : AppSigner}
      (hnew : AppSigner.newSw lib mnemonic s.config.isMainnet true = .ok signer)
      (hfits : Fits (AppSigner.fingerprint lib w) s.signers name signer) :
      Outcome lib w s ⟨unread, .signerLoadSoftware name mnemonic true⟩ (.addSigner name signer)
        (.append ⟨unread, .signerLoadSoftware name mnemonic true⟩)
  | signerNotKept {unread : List String} {name mnemonic : String} {signer : AppSigner}
      (hnew : AppSigner.newSw lib mnemonic s.config.isMainnet false = .ok signer)
      (hfits : Fits (AppSigner.fingerprint lib w) s.signers name signer) :
      Outcome lib w s ⟨unread, .signerLoadSoftware name mnemonic false⟩ (.addSigner name signer)
        .nothing
  | signerLoadJade {unread : List String} {name text : String} {id : XKeyIdentifier}
      {emulator : Option String} {signer : AppSigner}
      (hid : lib.xkeyIdentifier.fromStr text = .ok id)
      (hnew : AppSigner.newJade w id emulator = .ok signer)
      (hfits : Fits (AppSigner.fingerprint lib w) s.signers name signer) :
      Outcome lib w s ⟨unread, .signerLoadJade name text emulator⟩ (.addSigner name signer)
        (.append ⟨unread, .signerLoadJade name text emulator⟩)
  | signerLoadExternal {unread : List String} {name text : String} {fingerprint : Fingerprint}
      (hprint : lib.fingerprint.fromStr text = .ok fingerprint)
      (hfits : Fits (AppSigner.fingerprint lib w) s.signers name (.newExternal fingerprint)) :
      Outcome lib w s ⟨unread, .signerLoadExternal name text⟩
        (.addSigner name (.newExternal fingerprint))
        (.append ⟨unread, .signerLoadExternal name text⟩)
  | signerUnload {unread : List String} {name : String} {removed : AppSigner}
      {fingerprint : Fingerprint} (hremoved : s.signers.lookup name = some removed)
      (hprint : removed.fingerprint lib w = .ok fingerprint) :
      Outcome lib w s ⟨unread, .signerUnload name⟩ (.dropSigner name) .rewrite
  | signerMute {unread : List String} {name : String} {removed : AppSigner} {err : Error}
      (hremoved : s.signers.lookup name = some removed)
      (hprint : removed.fingerprint lib w = .error err) :
      Outcome lib w s ⟨unread, .signerUnload name⟩ (.dropSigner name) .nothing
  | walletSetTxMemo {unread : List String} {name text memo : String} {d : WolletDescriptor}
      {txid : Txid} (hd : s.wollets.lookup name = some d)
      (htxid : lib.txid.fromStr text = .ok txid) :
      Outcome lib w s ⟨unread, .walletSetTxMemo name text memo⟩ (.setTxMemo name txid memo)
        (.append ⟨unread, .walletSetTxMemo name text memo⟩)
  | walletSetAddrMemo {unread : List String} {name text memo : String} {d : WolletDescriptor}
      {address : Address} (hd : s.wollets.lookup name = some d)
      (haddress : lib.address.fromStr text = .ok address) :
      Outcome lib w s ⟨unread, .walletSetAddrMemo name text memo⟩ (.setAddrMemo name address memo)
        (.append ⟨unread, .walletSetAddrMemo name text memo⟩)
  | assetInsert {unread : List String} {assetId contract issuanceTx : String}
      {d : RegistryAssetData} (hd : insertData lib assetId contract issuanceTx = .ok d) :
      Outcome lib w s ⟨unread, .assetInsert assetId contract issuanceTx⟩ (.addAsset d)
        (.append ⟨unread, .assetInsert assetId contract issuanceTx⟩)
  | assetRemove {unread : List String} {assetId : String} {id : AssetId} {asset : AppAsset}
      (hid : lib.assetId.fromStr assetId = .ok id) (hasset : s.assets.lookup id = some asset) :
      Outcome lib w s ⟨unread, .assetRemove assetId⟩ (.dropAsset id) .rewrite
  | assetFromRegistry {unread : List String} {assetId : String} {id : AssetId}
      {d : RegistryAssetData} (hid : lib.assetId.fromStr assetId = .ok id) (hnew : id ∉ s.assets)
      (hd : fetchData lib w id = .ok d) (hne : d.tokenId ≠ d.assetId) :
      Outcome lib w s ⟨unread, .assetFromRegistry assetId⟩ (.addAsset d)
        (.append (insertRequest lib d))
  | assetCollides {unread : List String} {assetId : String} {id : AssetId}
      {d : RegistryAssetData} (hid : lib.assetId.fromStr assetId = .ok id) (hnew : id ∉ s.assets)
      (hd : fetchData lib w id = .ok d) (heq : d.tokenId = d.assetId) :
      Outcome lib w s ⟨unread, .assetFromRegistry assetId⟩ (.addAsset d) .poison

theorem signerLoaded_ok_iff {name : String} {write : Write} :
    signerLoaded lib w s name signer write = .ok o ↔
      Fits (AppSigner.fingerprint lib w) s.signers name signer ∧
        o = (.addSigner name signer, write) := by
  constructor
  · intro h
    obtain ⟨fingerprint, -, h⟩ := except_bind_ok_iff.1 h
    obtain ⟨signers, hsigners, h⟩ := except_bind_ok_iff.1 h
    exact ⟨(insertNew_ok_iff.1 hsigners).1, (Except.ok.inj h).symm⟩
  · rintro ⟨hfits, rfl⟩
    obtain ⟨fingerprint, hprint, -⟩ := hfits.key
    exact except_bind_ok_iff.2 ⟨fingerprint, hprint,
      except_bind_ok_iff.2 ⟨_, insertNew_ok_iff.2 ⟨hfits, rfl⟩, rfl⟩⟩

theorem outcome_of_ok (ho : outcome lib w s r = .ok (e, write)) : Outcome lib w s r e write := by
  obtain ⟨unread, params⟩ := r
  cases params with
  | walletLoad descriptor name =>
    obtain ⟨d, hd, ho⟩ := except_bind_ok_iff.1 ho
    obtain ⟨wollets, hwollets, ho⟩ := except_bind_ok_iff.1 ho
    cases ho
    exact .walletLoad hd (insertNew_ok_iff.1 hwollets).1
  | walletUnload name =>
    obtain ⟨d, hd, ho⟩ := except_bind_ok_iff.1 ho
    cases ho
    exact .walletUnload (okOr_ok_iff.1 hd)
  | signerLoadSoftware name mnemonic keep =>
    obtain ⟨signer, hsigner, ho⟩ := except_bind_ok_iff.1 ho
    obtain ⟨hfits, ho⟩ := signerLoaded_ok_iff.1 ho
    cases keep with
    | true =>
      cases ho
      exact .signerLoadSoftware hsigner hfits
    | false =>
      cases ho
      exact .signerNotKept hsigner hfits
  | signerLoadJade name id emulator =>
    obtain ⟨id, hid, ho⟩ := except_bind_ok_iff.1 ho
    obtain ⟨signer, hsigner, ho⟩ := except_bind_ok_iff.1 ho
    obtain ⟨hfits, ho⟩ := signerLoaded_ok_iff.1 ho
    cases ho
    exact .signerLoadJade (mapError_ok_iff.1 hid) hsigner hfits
  | signerLoadExternal name fingerprint =>
    obtain ⟨fingerprint, hprint, ho⟩ := except_bind_ok_iff.1 ho
    obtain ⟨hfits, ho⟩ := signerLoaded_ok_iff.1 ho
    cases ho
    exact .signerLoadExternal (mapError_ok_iff.1 hprint) hfits
  | signerUnload name =>
    obtain ⟨removed, hremoved, ho⟩ := except_bind_ok_iff.1 ho
    cases hprint : removed.fingerprint lib w with
    | ok fingerprint =>
      rw [hprint] at ho
      cases ho
      exact .signerUnload (okOr_ok_iff.1 hremoved) hprint
    | error err =>
      rw [hprint] at ho
      cases ho
      exact .signerMute (okOr_ok_iff.1 hremoved) hprint
  | walletSetTxMemo name txid memo =>
    obtain ⟨d, hd, ho⟩ := except_bind_ok_iff.1 ho
    obtain ⟨txid, htxid, ho⟩ := except_bind_ok_iff.1 ho
    cases ho
    exact .walletSetTxMemo (okOr_ok_iff.1 hd) (mapError_ok_iff.1 htxid)
  | walletSetAddrMemo name address memo =>
    obtain ⟨d, hd, ho⟩ := except_bind_ok_iff.1 ho
    obtain ⟨address, haddress, ho⟩ := except_bind_ok_iff.1 ho
    cases ho
    exact .walletSetAddrMemo (okOr_ok_iff.1 hd) (mapError_ok_iff.1 haddress)
  | assetInsert assetId contract issuanceTx =>
    obtain ⟨d, hd, ho⟩ := except_bind_ok_iff.1 ho
    cases ho
    exact .assetInsert hd
  | assetRemove assetId =>
    obtain ⟨id, hid, ho⟩ := except_bind_ok_iff.1 ho
    obtain ⟨asset, hasset, ho⟩ := except_bind_ok_iff.1 ho
    cases ho
    exact .assetRemove (mapError_ok_iff.1 hid) (okOr_ok_iff.1 hasset)
  | assetFromRegistry assetId =>
    obtain ⟨id, hid, ho⟩ := except_bind_ok_iff.1 ho
    obtain ⟨_, hnew, ho⟩ := except_bind_ok_iff.1 ho
    obtain ⟨d, hd, ho⟩ := except_bind_ok_iff.1 ho
    have hnew := of_decide_eq_true (require_ok_iff.1 hnew)
    by_cases hcollide : d.tokenId = d.assetId
    · rw [if_pos hcollide] at ho
      cases ho
      exact .assetCollides (mapError_ok_iff.1 hid) hnew hd hcollide
    · rw [if_neg hcollide] at ho
      cases ho
      exact .assetFromRegistry (mapError_ok_iff.1 hid) hnew hd hcollide

theorem Outcome.ok (h : Outcome lib w s r e write) : outcome lib w s r = .ok (e, write) := by
  cases h with
  | walletLoad hopen hfits =>
    exact except_bind_ok_iff.2 ⟨_, hopen,
      except_bind_ok_iff.2 ⟨_, insertNew_ok_iff.2 ⟨hfits, rfl⟩, rfl⟩⟩
  | walletUnload hd => exact except_bind_ok_iff.2 ⟨_, okOr_ok_iff.2 hd, rfl⟩
  | signerLoadSoftware hnew hfits | signerNotKept hnew hfits =>
    exact except_bind_ok_iff.2 ⟨_, hnew, signerLoaded_ok_iff.2 ⟨hfits, rfl⟩⟩
  | signerLoadJade hid hnew hfits =>
    exact except_bind_ok_iff.2 ⟨_, mapError_ok_iff.2 hid,
      except_bind_ok_iff.2 ⟨_, hnew, signerLoaded_ok_iff.2 ⟨hfits, rfl⟩⟩⟩
  | signerLoadExternal hprint hfits =>
    exact except_bind_ok_iff.2 ⟨_, mapError_ok_iff.2 hprint, signerLoaded_ok_iff.2 ⟨hfits, rfl⟩⟩
  | signerUnload hremoved hprint | signerMute hremoved hprint =>
    refine except_bind_ok_iff.2 ⟨_, okOr_ok_iff.2 hremoved, ?_⟩
    rw [hprint]
    rfl
  | walletSetTxMemo hd hread | walletSetAddrMemo hd hread =>
    exact except_bind_ok_iff.2 ⟨_, okOr_ok_iff.2 hd,
      except_bind_ok_iff.2 ⟨_, mapError_ok_iff.2 hread, rfl⟩⟩
  | assetInsert hd => exact except_bind_ok_iff.2 ⟨_, hd, rfl⟩
  | assetRemove hid hasset =>
    exact except_bind_ok_iff.2 ⟨_, mapError_ok_iff.2 hid,
      except_bind_ok_iff.2 ⟨_, okOr_ok_iff.2 hasset, rfl⟩⟩
  | assetFromRegistry hid hnew hd htoken | assetCollides hid hnew hd htoken =>
    refine except_bind_ok_iff.2 ⟨_, mapError_ok_iff.2 hid, except_bind_ok_iff.2
      ⟨(), require_ok_iff.2 (decide_eq_true hnew), except_bind_ok_iff.2 ⟨_, hd, ?_⟩⟩⟩
    simp only [htoken, if_true, if_false]
    rfl

theorem Outcome.same (hs : s.Same t) (h : Outcome lib w s r e write) :
    Outcome lib w t r e write := by
  cases h with
  | walletLoad hopen hfits =>
    rw [hs.config] at hopen
    exact .walletLoad hopen (hfits.same hs.wollets)
  | walletUnload hd => exact .walletUnload ((hs.wollets _).symm.trans hd)
  | signerLoadSoftware hnew hfits =>
    rw [hs.config] at hnew
    exact .signerLoadSoftware hnew (hfits.same hs.signers)
  | signerNotKept hnew hfits =>
    rw [hs.config] at hnew
    exact .signerNotKept hnew (hfits.same hs.signers)
  | signerLoadJade hid hnew hfits => exact .signerLoadJade hid hnew (hfits.same hs.signers)
  | signerLoadExternal hprint hfits => exact .signerLoadExternal hprint (hfits.same hs.signers)
  | signerUnload hremoved hprint =>
    exact .signerUnload ((hs.signers _).symm.trans hremoved) hprint
  | signerMute hremoved hprint => exact .signerMute ((hs.signers _).symm.trans hremoved) hprint
  | walletSetTxMemo hd htxid => exact .walletSetTxMemo ((hs.wollets _).symm.trans hd) htxid
  | walletSetAddrMemo hd haddress =>
    exact .walletSetAddrMemo ((hs.wollets _).symm.trans hd) haddress
  | assetInsert hd => exact .assetInsert hd
  | assetRemove hid hasset => exact .assetRemove hid ((hs.assets _).symm.trans hasset)
  | assetFromRegistry hid hnew hd hne =>
    exact .assetFromRegistry hid (fun hmem => hnew ((hs.assets.mem _).2 hmem)) hd hne
  | assetCollides hid hnew hd heq =>
    exact .assetCollides hid (fun hmem => hnew ((hs.assets.mem _).2 hmem)) hd heq

/-- **What a request does depends on the content of the state only.** Errors may differ: they name
whichever conflicting entry comes first. -/
theorem outcome_same (h : s.Same t) (ho : outcome lib w s r = .ok (e, write)) :
    outcome lib w t r = .ok (e, write) := ((outcome_of_ok ho).same h).ok

/-! ## Requests that rewrite the file -/

/-- A request that removes something the state has. A signer is removed together with its line if it
answers with its fingerprint. -/
inductive Removes (lib : Library) (w : World) (s : State) : Params → Effect → Prop
  | wollet {name : String} {d : WolletDescriptor} (h : s.wollets.lookup name = some d) :
      Removes lib w s (.walletUnload name) (.dropWollet name)
  | signer {name : String} {removed : AppSigner} {fingerprint : Fingerprint}
      (h : s.signers.lookup name = some removed)
      (hprint : removed.fingerprint lib w = .ok fingerprint) :
      Removes lib w s (.signerUnload name) (.dropSigner name)
  | asset {assetId : String} {id : AssetId} {asset : AppAsset}
      (hid : lib.assetId.fromStr assetId = .ok id) (h : s.assets.lookup id = some asset) :
      Removes lib w s (.assetRemove assetId) (.dropAsset id)

theorem newSw_ok {mnemonic : String} {isMainnet keep : Bool}
    (h : AppSigner.newSw lib mnemonic isMainnet keep = .ok signer) :
    ∃ m xprv, lib.mnemonic.fromStr mnemonic = .ok m ∧
      signer = ⟨.availableSigner (.software ⟨m, xprv⟩), keep⟩ := by
  obtain ⟨m, hm, h⟩ := except_bind_ok_iff.1 h
  obtain ⟨xprv, -, h⟩ := except_bind_ok_iff.1 h
  cases h
  exact ⟨m, xprv, mapError_ok_iff.1 hm, rfl⟩

/-- **The file is rewritten where something is removed.** -/
theorem outcome_rewrite_iff :
    outcome lib w s r = .ok (e, .rewrite) ↔ Removes lib w s r.params e := by
  constructor
  · intro ho
    cases outcome_of_ok ho with
    | walletUnload hd => exact .wollet hd
    | signerUnload hremoved hprint => exact .signer hremoved hprint
    | assetRemove hid hasset => exact .asset hid hasset
  · intro h
    obtain ⟨unread, params⟩ := r
    cases h with
    | wollet h => exact Outcome.ok (.walletUnload h)
    | signer h hprint => exact Outcome.ok (.signerUnload h hprint)
    | asset hid h => exact Outcome.ok (.assetRemove hid h)

theorem lookup_of_insert [DecidableEq K] {v' : V} (h : (AList.insert k v m).lookup k' = some v') :
    k' = k ∧ v' = v ∨ m.lookup k' = some v' := by
  by_cases hk : k' = k
  · rw [hk, lookup_insert] at h
    exact .inl ⟨hk, (Option.some.inj h).symm⟩
  · rw [lookup_insert_ne hk] at h
    exact .inr h

theorem lookup_of_erase [DecidableEq K] (h : (AList.erase k m).lookup k' = some v) :
    k' ≠ k ∧ m.lookup k' = some v := by
  by_cases hk : k' = k
  · rw [hk, lookup_erase] at h
    cases h
  · rw [lookup_erase_ne hk] at h
    exact ⟨hk, h⟩

theorem memo_of_set [DecidableEq K] {m : Memos K} {memo' : String}
    (h : ((m.set n k memo).forWollet n').lookup k' = some memo') :
    (n' = n ∧ k' = k ∧ memo' = memo) ∨ (m.forWollet n').lookup k' = some memo' := by
  rw [Memos.forWollet_set] at h
  by_cases hn : n' = n
  · rw [if_pos hn] at h
    rcases lookup_of_insert h with ⟨hk, hmemo⟩ | h
    · exact .inl ⟨hn, hk, hmemo⟩
    · rw [hn]
      exact .inr h
  · rw [if_neg hn] at h
    exact .inr h

theorem memo_of_erase [DecidableEq K] {m : Memos K}
    (h : (Memos.forWollet (AList.erase n m) n').lookup k = some memo) :
    n' ≠ n ∧ (m.forWollet n').lookup k = some memo := by
  rw [Memos.forWollet_erase] at h
  by_cases hn : n' = n
  · rw [if_pos hn] at h
    cases h
  · rw [if_neg hn] at h
    exact ⟨hn, h⟩

/-! ## The lines of a rewritten file -/

/-- What a line of a rewritten file stands for. -/
inductive Entry
  | wollet (name : String) (d : WolletDescriptor)
  | txMemo (name : String) (txid : Txid) (memo : String)
  | addrMemo (name : String) (address : Address) (memo : String)
  | signer (name : String) (s : AppSigner)
  | asset (d : RegistryAssetData)

def Entry.request (lib : Library) : Entry → Request
  | .wollet name d => .made (.walletLoad (lib.descriptor.toStr d) name)
  | .txMemo name txid memo => .made (.walletSetTxMemo name (lib.txid.toStr txid) memo)
  | .addrMemo name address memo => .made (.walletSetAddrMemo name (lib.address.toStr address) memo)
  | .signer name s => s.request lib name
  | .asset d => insertRequest lib d

inductive State.Holds (s : State) : Entry → Prop
  | wollet {name : String} {d : WolletDescriptor} (h : s.wollets.lookup name = some d) :
      Holds s (.wollet name d)
  | txMemo {name memo : String} {txid : Txid}
      (h : (s.txMemos.forWollet name).lookup txid = some memo) : Holds s (.txMemo name txid memo)
  | addrMemo {name memo : String} {address : Address}
      (h : (s.addrMemos.forWollet name).lookup address = some memo) :
      Holds s (.addrMemo name address memo)
  | signer {name : String} {signer : AppSigner} (h : s.signers.lookup name = some signer) :
      Holds s (.signer name signer)
  | asset {id : AssetId} {d : RegistryAssetData}
      (h : s.assets.lookup id = some (.registryAsset d)) : Holds s (.asset d)

variable {entry : Entry}

/-- The memos of all wallets, in the order of the maps. -/
def Memos.triples {K : Type} (m : Memos K) : List (String × K × String) :=
  m.toPairs.flatMap fun e => e.2.toPairs.map fun p => (e.1, p.1, p.2)

theorem Memos.requests_eq {K : Type} (m : Memos K) (request : String → K → String → Request) :
    m.requests request = m.triples.map fun e => request e.1 e.2.1 e.2.2 := by
  simp [Memos.requests, Memos.triples, List.map_flatMap, Function.comp_def]

theorem Memos.mem_triples {K : Type} [DecidableEq K] {m : Memos K} {k : K} :
    (n, k, memo) ∈ m.triples ↔ (m.forWollet n).lookup k = some memo := by
  simp only [Memos.triples, List.mem_flatMap, List.mem_map]
  constructor
  · rintro ⟨⟨n', memos⟩, hn, ⟨k', memo'⟩, hk, h⟩
    cases h
    rw [Memos.forWollet, HashMap.mem_toPairs.1 hn]
    exact HashMap.mem_toPairs.1 hk
  · intro hk
    rw [Memos.forWollet] at hk
    cases hn : m.lookup n with
    | none =>
      rw [hn] at hk
      cases hk
    | some memos =>
      rw [hn] at hk
      exact ⟨(n, memos), HashMap.mem_toPairs.2 hn, (k, memo), HashMap.mem_toPairs.2 hk, rfl⟩

theorem mem_memoRequests {K : Type} [DecidableEq K] {m : Memos K}
    {request : String → K → String → Request} : line ∈ m.requests request ↔
      ∃ n k memo, (m.forWollet n).lookup k = some memo ∧ request n k memo = line := by
  simp only [Memos.requests_eq, List.mem_map, Prod.exists, Memos.mem_triples]

def Assets.registryData (m : Assets) : List RegistryAssetData :=
  m.values.filterMap fun a =>
    match a with
    | .registryAsset d => some d
    | _ => none

theorem Assets.mem_registryData {m : Assets} {d : RegistryAssetData} :
    d ∈ m.registryData ↔ ∃ id, m.lookup id = some (.registryAsset d) := by
  rw [Assets.registryData, List.mem_filterMap]
  constructor
  · rintro ⟨asset, ha, h⟩
    obtain ⟨id, hid⟩ := HashMap.mem_values.1 ha
    cases asset with
    | registryAsset d' =>
      cases h
      exact ⟨id, hid⟩
    | policyAsset a => cases h
    | reissuanceToken d' => cases h
  · rintro ⟨id, hid⟩
    exact ⟨_, HashMap.mem_values.2 ⟨id, hid⟩, rfl⟩

theorem Assets.requests_eq (lib : Library) (m : Assets) :
    m.values.filterMap (·.request lib) = m.registryData.map (insertRequest lib) := by
  rw [Assets.registryData, List.map_filterMap]
  apply List.filterMap_congr
  intro asset _
  cases asset <;> rfl

/-- **A rewritten file has one line for each entry.** -/
theorem mem_asRequests_iff :
    line ∈ s.asRequests lib ↔ ∃ entry, s.Holds entry ∧ entry.request lib = line := by
  simp only [State.asRequests, List.mem_append, mem_memoRequests, List.mem_map, Assets.requests_eq,
    Assets.mem_registryData]
  constructor
  · rintro ((((⟨⟨n, d⟩, hd, rfl⟩ | ⟨n, k, memo, hm, rfl⟩) | ⟨n, k, memo, hm, rfl⟩) |
      ⟨⟨n, signer⟩, hs, rfl⟩) | ⟨d, ⟨id, hid⟩, rfl⟩)
    · exact ⟨_, .wollet (HashMap.mem_toPairs.1 hd), rfl⟩
    · exact ⟨_, .txMemo hm, rfl⟩
    · exact ⟨_, .addrMemo hm, rfl⟩
    · exact ⟨_, .signer (HashMap.mem_toPairs.1 hs), rfl⟩
    · exact ⟨_, .asset hid, rfl⟩
  · rintro ⟨entry, h, rfl⟩
    cases h with
    | wollet h => exact .inl (.inl (.inl (.inl ⟨(_, _), HashMap.mem_toPairs.2 h, rfl⟩)))
    | txMemo h => exact .inl (.inl (.inl (.inr ⟨_, _, _, h, rfl⟩)))
    | addrMemo h => exact .inl (.inl (.inr ⟨_, _, _, h, rfl⟩))
    | signer h => exact .inl (.inr ⟨(_, _), HashMap.mem_toPairs.2 h, rfl⟩)
    | asset h => exact .inr ⟨_, ⟨_, h⟩, rfl⟩

theorem not_holds_start {config : Config} : ¬ (Server.start config).state.Holds entry := by
  intro h
  cases h with
  | wollet h => cases h
  | txMemo h => cases h
  | addrMemo h => cases h
  | signer h => cases h
  | asset h =>
    rcases lookup_of_insert h with ⟨-, h⟩ | h <;> cases h

theorem State.Holds.same (hs : s.Same t) (h : s.Holds entry) : t.Holds entry := by
  cases h with
  | wollet h => exact .wollet ((hs.wollets _).symm.trans h)
  | txMemo h => exact .txMemo ((hs.txMemos _ _).symm.trans h)
  | addrMemo h => exact .addrMemo ((hs.addrMemos _ _).symm.trans h)
  | signer h => exact .signer ((hs.signers _).symm.trans h)
  | asset h => exact .asset ((hs.assets _).symm.trans h)

def Effect.adds : Effect → Option Entry
  | .addWollet name d => some (.wollet name d)
  | .addSigner name s => some (.signer name s)
  | .setTxMemo name txid memo => some (.txMemo name txid memo)
  | .setAddrMemo name address memo => some (.addrMemo name address memo)
  | .addAsset d => some (.asset d)
  | .dropWollet _ | .dropSigner _ | .dropAsset _ => none

/-- **After a change a state holds what it held and what was added.** -/
theorem State.Holds.of_on {e : Effect} (h : (e.on s).Holds entry) :
    s.Holds entry ∨ e.adds = some entry := by
  -- each kind of entry has one change that adds it and at most one that removes it
  cases h with
  | wollet h =>
    cases e with
    | addWollet name d =>
      rcases lookup_of_insert h with ⟨rfl, rfl⟩ | h
      · exact .inr rfl
      · exact .inl (.wollet h)
    | dropWollet name => exact .inl (.wollet (lookup_of_erase h).2)
    | _ => exact .inl (.wollet h)
  | txMemo h =>
    cases e with
    | setTxMemo name txid memo =>
      rcases memo_of_set h with ⟨rfl, rfl, rfl⟩ | h
      · exact .inr rfl
      · exact .inl (.txMemo h)
    | dropWollet name => exact .inl (.txMemo (memo_of_erase h).2)
    | _ => exact .inl (.txMemo h)
  | addrMemo h =>
    cases e with
    | setAddrMemo name address memo =>
      rcases memo_of_set h with ⟨rfl, rfl, rfl⟩ | h
      · exact .inr rfl
      · exact .inl (.addrMemo h)
    | dropWollet name => exact .inl (.addrMemo (memo_of_erase h).2)
    | _ => exact .inl (.addrMemo h)
  | signer h =>
    cases e with
    | addSigner name signer =>
      rcases lookup_of_insert h with ⟨rfl, rfl⟩ | h
      · exact .inr rfl
      · exact .inl (.signer h)
    | dropSigner name => exact .inl (.signer (lookup_of_erase h).2)
    | _ => exact .inl (.signer h)
  | asset h =>
    cases e with
    | addAsset d =>
      rcases lookup_of_insert h with ⟨-, hd⟩ | h
      · cases hd
      · rcases lookup_of_insert h with ⟨-, hd⟩ | h
        · cases hd
          exact .inr rfl
        · exact .inl (.asset h)
    | dropAsset id => exact .inl (.asset (lookup_of_erase h).2)
    | _ => exact .inl (.asset h)

end Same

end Swk.App
