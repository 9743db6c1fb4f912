import Swk.AppEntries

/-!
# Signers that are not to be saved

A software signer may be loaded with `persist = false`: its mnemonic is then to stay in memory. The
request that loads it is indeed not written. But a request that removes something, be it a wallet,
another signer or an asset, rewrites the file from memory, and `as_requests` writes every signer
that is loaded, whatever its flag (`mnemonic_reaches_file`).

So the mnemonic stays off the file exactly as long as nothing is removed while the signer is loaded
(`mnemonic_off_file_iff`). The text of a mnemonic may of course also get into the file because
another request spells it, in a memo for instance; the theorem is about runs without such requests,
and `Request.written` says which texts of a request count.
-/

namespace Swk.App

open List

open Boltz (Mnemonic)
open Registry (RegistryAssetData)

/-! ## Texts -/

def Params.texts : Params → List String
  | .walletLoad descriptor name => [descriptor, name]
  | .walletUnload name => [name]
  | .signerLoadSoftware name mnemonic _ => [name, mnemonic]
  | .signerLoadJade name id emulator => name :: id :: emulator.toList
  | .signerLoadExternal name fingerprint => [name, fingerprint]
  | .signerUnload name => [name]
  | .walletSetTxMemo name txid memo => [name, txid, memo]
  | .walletSetAddrMemo name address memo => [name, address, memo]
  | .assetInsert assetId contract issuanceTx => [assetId, contract, issuanceTx]
  | .assetRemove assetId => [assetId]
  | .assetFromRegistry assetId => [assetId]

/-- A line contains a mnemonic if one of its texts does. -/
def Request.Contains (lib : Library) (m : Mnemonic) (r : Request) : Prop :=
  ∃ t ∈ r.unread ++ r.params.texts, (lib.mnemonic.toStr m).toList <:+: t.toList

instance (lib : Library) (m : Mnemonic) (r : Request) : Decidable (r.Contains lib m) :=
  inferInstanceAs (Decidable
    (∃ t ∈ r.unread ++ r.params.texts, (lib.mnemonic.toStr m).toList <:+: t.toList))

/-- A request that loads the signer of a mnemonic. -/
def Request.Loads (lib : Library) (m : Mnemonic) (r : Request) : Prop :=
  match r.params with
  | .signerLoadSoftware _ mnemonic _ => lib.mnemonic.fromStr mnemonic = .ok m
  | _ => False

/-- The line made of a value, if there is one. -/
def lineOf {α ε : Type} (x : Except ε α) (f : α → Request) : List Request :=
  match x with
  | .ok a => [f a]
  | .error _ => []

/-- The lines a request may leave in the file: itself, where it is appended, and what `as_requests`
makes of the values in it. -/
def Request.written (lib : Library) (w : World) (r : Request) : List Request :=
  match r.params with
  | .walletLoad descriptor name =>
    r :: lineOf (lib.descriptor.fromStr descriptor) fun d => (Entry.wollet name d).request lib
  | .signerLoadSoftware name mnemonic keep =>
    (if keep then [r] else []) ++ lineOf (lib.mnemonic.fromStr mnemonic) fun m =>
      .made (.signerLoadSoftware name (lib.mnemonic.toStr m) keep)
  | .signerLoadJade name id _ =>
    r :: lineOf (lib.xkeyIdentifier.fromStr id) fun id =>
      .made (.signerLoadJade name (lib.xkeyIdentifier.toStr id) none)
  | .signerLoadExternal name fingerprint =>
    r :: lineOf (lib.fingerprint.fromStr fingerprint) fun f =>
      .made (.signerLoadExternal name (lib.fingerprint.toStr f))
  | .walletSetTxMemo name txid memo =>
    r :: lineOf (lib.txid.fromStr txid) fun txid => (Entry.txMemo name txid memo).request lib
  | .walletSetAddrMemo name address memo =>
    r :: lineOf (lib.address.fromStr address) fun address =>
      (Entry.addrMemo name address memo).request lib
  | .assetInsert assetId contract issuanceTx =>
    r :: lineOf (insertData lib assetId contract issuanceTx) (insertRequest lib)
  | .assetFromRegistry assetId =>
    lineOf ((lib.assetId.fromStr assetId).mapError Error.hexArray >>= fetchData lib w)
      (insertRequest lib)
  | .walletUnload _ | .signerUnload _ | .assetRemove _ => []

/-- A request that loads the signer of the mnemonic does so with `persist = false`, and any other
request leaves no line with the mnemonic by itself. -/
structure Unsaved (lib : Library) (m : Mnemonic) (w : World) (r : Request) : Prop where
  notKept : ∀ name mnemonic keep, r.params = .signerLoadSoftware name mnemonic keep →
    lib.mnemonic.fromStr mnemonic = .ok m → keep = false
  silent : ¬ r.Loads lib m → ∀ line ∈ r.written lib w, ¬ line.Contains lib m

/-! ## What a request leaves in the file -/

section Written

variable {lib : Library} {w : World} {s : State} {r : Request} {e : Effect} {write : Write}
  {m : Mnemonic} {srv : Server}

theorem mem_lineOf {α ε : Type} {x : Except ε α} {a : α} (h : x = .ok a) (f : α → Request) :
    f a ∈ lineOf x f := by
  rw [h]
  exact mem_singleton_self _

theorem mem_written {entry : Entry} {lines : List Request} (h : entry.request lib ∈ lines) :
    (∀ line, Write.append r = .append line → line ∈ r :: lines) ∧
      ∀ entry', some entry = some entry' → entry'.request lib ∈ r :: lines := by
  constructor
  · rintro line ⟨⟩
    exact mem_cons_self
  · rintro entry' ⟨⟩
    exact mem_cons_of_mem _ h

theorem fetched_written {unread : List String} {assetId : String} {id : AssetId}
    {d : Registry.RegistryAssetData} (hid : lib.assetId.fromStr assetId = .ok id)
    (hd : fetchData lib w id = .ok d) :
    insertRequest lib d ∈ Request.written lib w ⟨unread, .assetFromRegistry assetId⟩ :=
  mem_lineOf (except_bind_ok_iff.2 ⟨id, mapError_ok_iff.2 hid, hd⟩) (insertRequest lib)

theorem outcome_written (ho : outcome lib w s r = .ok (e, write)) :
    (∀ line, write = .append line → line ∈ r.written lib w) ∧
      ∀ entry, e.adds = some entry → entry.request lib ∈ r.written lib w := by
  cases outcome_of_ok ho with
  | walletLoad hopen hfits =>
    obtain ⟨d, hd, hopen⟩ := except_bind_ok_iff.1 hopen
    repeat obtain ⟨_, -, hopen⟩ := except_bind_ok_iff.1 hopen
    cases hopen
    exact mem_written (mem_lineOf (mapError_ok_iff.1 hd) _)
  | signerLoadSoftware hnew hfits =>
    obtain ⟨m, xprv, hm, rfl⟩ := newSw_ok hnew
    constructor
    · rintro line ⟨⟩
      exact mem_append_left _ (mem_singleton_self _)
    · rintro entry ⟨⟩
      exact mem_append_right _ (mem_lineOf hm _)
  | signerNotKept hnew hfits =>
    obtain ⟨m, xprv, hm, rfl⟩ := newSw_ok hnew
    refine ⟨(fun _ h => nomatch h), ?_⟩
    rintro entry ⟨⟩
    exact mem_append_right _ (mem_lineOf hm _)
  | signerLoadJade hid hnew hfits =>
    rename_i name _ _ emulator _
    have hline := mem_lineOf hid fun id =>
      Request.made (.signerLoadJade name (lib.xkeyIdentifier.toStr id) none)
    -- connected or not, a Jade is written by its id
    cases emulator with
    | none =>
      cases hnew
      exact mem_written hline
    | some socket =>
      obtain ⟨_, -, hnew⟩ := except_bind_ok_iff.1 hnew
      cases hnew
      exact mem_written hline
  | signerLoadExternal hread _ | walletSetTxMemo _ hread | walletSetAddrMemo _ hread
  | assetInsert hread => exact mem_written (mem_lineOf hread _)
  | assetFromRegistry hid hnew hd hne =>
    constructor
    · rintro line ⟨⟩
      exact fetched_written hid hd
    · rintro entry ⟨⟩
      exact fetched_written hid hd
  | assetCollides hid hnew hd heq =>
    refine ⟨(fun _ h => nomatch h), ?_⟩
    rintro entry ⟨⟩
    exact fetched_written hid hd
  | walletUnload | signerUnload | signerMute | assetRemove =>
    exact ⟨(fun _ h => nomatch h), fun _ h => nomatch h⟩

theorem outcome_of_loads (hr : Unsaved lib m w r) (hloads : r.Loads lib m)
    (ho : outcome lib w s r = .ok (e, write)) :
    write = .nothing ∧ ∃ name signer, e = .addSigner name signer ∧ signer.mnemonic = some m := by
  cases outcome_of_ok ho with
  | signerLoadSoftware hnew hfits => cases hr.notKept _ _ _ rfl hloads
  | signerNotKept hnew hfits =>
    have hparse : lib.mnemonic.fromStr _ = .ok m := hloads
    obtain ⟨m', xprv, hm, rfl⟩ := newSw_ok hnew
    cases hparse.symm.trans hm
    exact ⟨rfl, _, _, rfl, rfl⟩
  | _ => exact False.elim hloads

/-! ## Runs -/

def Loaded (m : Mnemonic) (signers : Signers) : Prop :=
  ∃ name signer, signers.lookup name = some signer ∧ AppSigner.mnemonic signer = some m

/-- The request removes something, and the signer is loaded afterwards. -/
def Exposes (lib : Library) (m : Mnemonic) (w : World) (srv : Server) (r : Request) : Prop :=
  srv.poisoned = false ∧ ∃ e, Removes lib w srv.state r.params e ∧ Loaded m (e.on srv.state).signers

/-- The runs, from a server without file, in which a mnemonic is not to be saved and nothing is
removed while its signer is loaded. What a refused request asks for does not matter. Between two
requests the order of the maps may change. -/
inductive UnsavedRun (lib : Library) (config : Config) (m : Mnemonic) : Server → Prop
  | start : UnsavedRun lib config m (.start config)
  | reorder {srv : Server} {t : State} (hrun : UnsavedRun lib config m srv)
      (hsame : srv.state.Same t) (hpersist : t.doPersist = srv.state.doPersist) :
      UnsavedRun lib config m { srv with state := t }
  | handle {srv : Server} {w : World} {r : Request} (hrun : UnsavedRun lib config m srv)
      (hr : ∀ o, outcome lib w srv.state r = .ok o → Unsaved lib m w r)
      (hsafe : ¬ Exposes lib m w srv r) :
      UnsavedRun lib config m (srv.next lib w r)

def Entry.mnemonic : Entry → Option Mnemonic
  | .signer _ s => s.mnemonic
  | _ => none

/-- Of what the state holds, only the signer itself spells the mnemonic. -/
def Hidden (lib : Library) (m : Mnemonic) (s : State) : Prop :=
  ∀ entry, s.Holds entry → (entry.request lib).Contains lib m → entry.mnemonic = some m

theorem signer_contains {name : String} {signer : AppSigner} (h : signer.mnemonic = some m) :
    (signer.request lib name).Contains lib m := by
  obtain ⟨inner, keep⟩ := signer
  cases inner with
  | availableSigner any =>
    cases any with
    | software sw =>
      cases h
      have hmem : lib.mnemonic.toStr sw.mnemonic ∈ [name, lib.mnemonic.toStr sw.mnemonic] :=
        mem_cons_of_mem _ (mem_singleton_self _)
      exact ⟨_, hmem, infix_rfl⟩
    | jade id => cases h
  | jadeId id => cases h
  | externalSigner f => cases h

theorem hidden_on (hs : Hidden lib m s) (hr : Unsaved lib m w r)
    (ho : outcome lib w s r = .ok (e, write)) : Hidden lib m (e.on s) := by
  intro entry hentry hcontains
  rcases hentry.of_on with hold | hadds
  · exact hs entry hold hcontains
  · by_cases hloads : r.Loads lib m
    · obtain ⟨-, name, signer, rfl, hm⟩ := outcome_of_loads hr hloads ho
      cases hadds
      exact hm
    · exact absurd hcontains (hr.silent hloads _ ((outcome_written ho).2 entry hadds))

theorem State.Holds.loaded {entry : Entry} (h : s.Holds entry) (hm : entry.mnemonic = some m) :
    Loaded m s.signers := by
  cases h with
  | signer h => exact ⟨_, _, h, hm⟩
  | _ => cases hm

theorem append_silent {line : Request} (hfile : ∀ line ∈ srv.file, ¬ line.Contains lib m)
    (hr : Unsaved lib m w r) (ho : outcome lib w srv.state r = .ok (e, .append line)) :
    ∀ line' ∈ (srv.after lib (e, .append line)).file, ¬ line'.Contains lib m := by
  have hloads : ¬ r.Loads lib m := fun hloads => by
    cases (outcome_of_loads hr hloads ho).1
  have hline : ¬ line.Contains lib m := hr.silent hloads _ ((outcome_written ho).1 line rfl)
  intro line' hmem
  simp only [Server.after] at hmem
  cases hpersist : srv.state.doPersist with
  | false =>
    rw [hpersist] at hmem
    exact hfile line' hmem
  | true =>
    rw [hpersist] at hmem
    rcases mem_append.1 hmem with hmem | hmem
    · exact hfile line' hmem
    · rw [mem_singleton.1 hmem]
      exact hline

variable (hs : Hidden lib m srv.state)
  (hr : ∀ o, outcome lib w srv.state r = .ok o → Unsaved lib m w r)

include hs hr

/-- **One request.** If the file and what else the state holds do not spell the mnemonic, it gets
into the file exactly when the request exposes it. -/
theorem next_silent_iff (hfile : ∀ line ∈ srv.file, ¬ line.Contains lib m) :
    (∀ line ∈ (srv.next lib w r).file, ¬ line.Contains lib m) ↔ ¬ Exposes lib m w srv r := by
  cases hlock : srv.poisoned with
  | true =>
    rw [next_poisoned hlock]
    refine iff_of_true hfile fun h => ?_
    cases hlock.symm.trans h.1
  | false =>
    simp only [next_eq hlock, Exposes, hlock, true_and, ← outcome_rewrite_iff]
    cases ho : outcome lib w srv.state r with
    | error err => exact iff_of_true hfile fun ⟨e, he, _⟩ => nomatch he
    | ok o =>
      have hr := hr o ho
      obtain ⟨e, write⟩ := o
      cases write with
      | nothing | poison => exact iff_of_true hfile fun ⟨e, he, _⟩ => nomatch he
      | append line =>
        refine iff_of_true ?_ fun ⟨e, he, _⟩ => nomatch he
        exact append_silent hfile hr ho
      | rewrite =>
        have hhidden := hidden_on hs hr ho
        constructor
        · rintro hsilent ⟨e', he, name, signer, hsigner, hm⟩
          cases he
          exact hsilent _ (mem_asRequests_iff.2 ⟨_, .signer hsigner, rfl⟩) (signer_contains hm)
        · intro hsafe line hline hcontains
          obtain ⟨entry, hentry, rfl⟩ := mem_asRequests_iff.1 hline
          exact hsafe ⟨e, rfl, hentry.loaded (hhidden entry hentry hcontains)⟩

theorem hidden_next :
    Hidden lib m (srv.next lib w r).state := by
  cases hlock : srv.poisoned with
  | true =>
    rw [next_poisoned hlock]
    exact hs
  | false =>
    rw [next_eq hlock]
    cases ho : outcome lib w srv.state r with
    | error err => exact hs
    | ok o =>
      have hhidden := hidden_on hs (hr o ho) ho
      obtain ⟨e, write⟩ := o
      cases write <;> exact hhidden

omit hs hr

theorem UnsavedRun.hidden {config : Config} (hrun : UnsavedRun lib config m srv) :
    (∀ line ∈ srv.file, ¬ line.Contains lib m) ∧ Hidden lib m srv.state := by
  induction hrun with
  | start =>
    exact ⟨(fun _ h => nomatch h), fun entry hentry => absurd hentry not_holds_start⟩
  | reorder hrun hsame hpersist ih =>
    exact ⟨ih.1, fun entry hentry => ih.2 entry (hentry.same hsame.symm)⟩
  | handle hrun hr hsafe ih =>
    exact ⟨(next_silent_iff ih.2 hr ih.1).2 hsafe, hidden_next ih.2 hr⟩

end Written

/-! ## A server with such a signer -/

def TextForm.single {α : Type} (text : String) (a : α) : TextForm α where
  fromStr s := if s = text then .ok a else .error "unknown"
  toStr _ := text

namespace SampleServer

def descriptor : WolletDescriptor :=
  ⟨.desc (Concrete.descriptor (Concrete.scripts .external true fun _ => [0x51]) none none), false⟩

def library : Library where
  hashing :=
    { issuance := ⟨fun _ _ => 0, fun _ => 1, fun _ _ => 2⟩
      contractJsonHash := fun _ => 0
      jsonFromStr := fun _ => none
      jsonToString := fun _ => "" }
  secp := ⟨fun _ => ⟨false, 1⟩, fun _ _ => none⟩
  descriptor := .single "wpkh" descriptor
  mnemonic := ⟨fun s => .ok ⟨s⟩, fun m => m.words⟩
  fingerprint := .single "01" 1
  xkeyIdentifier := .single "02" 2
  txid := .single "03" 3
  address := .single "04" ⟨[0x51], none⟩
  assetId := .single "05" 5
  transaction := .single "06" ⟨[], []⟩
  isMainnet := fun _ => false
  build := fun _ => .ok ()
  ctDescriptorToString := fun _ => "wpkh"
  newMaster := fun _ _ => .ok ⟨[]⟩
  xprivFingerprint := fun _ => 1

def world : World where
  jadeFromSocket := fun _ => .error "no device"
  jadeFingerprint := fun _ => .error "no device"
  fetchWithTx := fun _ => .error .client

def config : Config := ⟨false, 0⟩

def mnemonic : Mnemonic := ⟨"abandon about"⟩

def loadWallet : Request := .made (.walletLoad "wpkh" "w")

def loadSigner : Request := .made (.signerLoadSoftware "s" "abandon about" false)

def unloadWallet : Request := .made (.walletUnload "w")

def server : Server :=
  ((Server.start config).next library world loadWallet).next library world loadSigner

theorem unsaved_loadWallet : Unsaved library mnemonic world loadWallet where
  notKept _ _ _ h := by cases h
  silent _ := by decide

theorem unsaved_loadSigner : Unsaved library mnemonic world loadSigner where
  notKept _ _ _ h := by
    cases h
    intro _
    rfl
  silent h := absurd rfl h

theorem unsaved_unloadWallet : Unsaved library mnemonic world unloadWallet where
  notKept _ _ _ h := by cases h
  silent _ line hline := by cases hline

theorem not_exposes {srv : Server} {r : Request} (h : r = loadWallet ∨ r = loadSigner) :
    ¬ Exposes library mnemonic world srv r := by
  rintro ⟨-, e, hremoves, -⟩
  rcases h with rfl | rfl <;> cases hremoves

end SampleServer

/-- **A mnemonic that is not to be saved stays off the file until something is removed while its
signer is loaded.** -/
theorem mnemonic_off_file_iff {lib : Library} {config : Config} {m : Mnemonic} {srv : Server}
    {w : World} {r : Request} (hrun : UnsavedRun lib config m srv)
    (hr : ∀ o, outcome lib w srv.state r = .ok o → Unsaved lib m w r) :
    (∀ line ∈ srv.file, ¬ line.Contains lib m) ∧
      ((∀ line ∈ (srv.next lib w r).file, ¬ line.Contains lib m) ↔ ¬ Exposes lib m w srv r) :=
  ⟨hrun.hidden.1, next_silent_iff hrun.hidden.2 hr hrun.hidden.1⟩

namespace SampleServer

/-- The sample server is reached without a line that spells the mnemonic. -/
theorem server_off_file_iff : (∀ line ∈ server.file, ¬ line.Contains library mnemonic) ∧
      ((∀ line ∈ (server.next library world unloadWallet).file, ¬ line.Contains library mnemonic) ↔
        ¬ Exposes library mnemonic world server unloadWallet) :=
  mnemonic_off_file_iff
    (.handle (.handle .start (fun _ _ => unsaved_loadWallet) (not_exposes (.inl rfl)))
      (fun _ _ => unsaved_loadSigner) (not_exposes (.inr rfl)))
    fun _ _ => unsaved_unloadWallet

/-- **The mnemonic is written when the wallet is unloaded**, though the only request that loads its
signer has `persist = false`. -/
theorem mnemonic_reaches_file : (∀ r ∈ [loadWallet, loadSigner, unloadWallet], ∀ name mnemonic keep,
        r.params = .signerLoadSoftware name mnemonic keep → keep = false) ∧
      server.file = [loadWallet] ∧
      ∃ line ∈ (server.next library world unloadWallet).file, line.Contains library mnemonic := by
  refine ⟨?_, by decide, by decide⟩
  intro r hr name mnemonic keep hparams
  simp only [mem_cons, not_mem_nil, or_false] at hr
  rcases hr with rfl | rfl | rfl
  · cases hparams
  · cases hparams
    rfl
  · cases hparams

end SampleServer

end Swk.App
