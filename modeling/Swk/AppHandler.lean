import Swk.AppState

/-!
# Handling requests

Every request that changes the state of the server also changes its file, in one of two ways,
following `inner_method_handler` and `state.rs`. A request that adds something is appended as it
came (`persist`). A request that removes something replaces the file by requests made up from what
is in memory (`persist_all`, `asRequests`). When the server starts it handles the lines of the file
one by one and only then begins to write (`App.run`).

`outcome` says the same once more, without the bookkeeping of a handler: the change a request makes
to the state, and what becomes of the file. `next_eq` is the connection; everything later is proved
from it.
-/

namespace Swk.App

open Registry (RegistryAssetData)

/-! ## Requests -/

/-- The parameters of the requests that change the state. -/
inductive Params
  | walletLoad (descriptor name : String)
  | walletUnload (name : String)
  | signerLoadSoftware (name mnemonic : String) (persist : Bool)
  | signerLoadJade (name id : String) (emulator : Option String)
  | signerLoadExternal (name fingerprint : String)
  | signerUnload (name : String)
  | walletSetTxMemo (name txid memo : String)
  | walletSetAddrMemo (name address memo : String)
  | assetInsert (assetId contract issuanceTx : String)
  | assetRemove (assetId : String)
  | assetFromRegistry (assetId : String)
deriving DecidableEq

/-- `Request`. A request that is written as it came keeps its id and the parameters its method does
not know; they are the texts `unread`. -/
structure Request where
  unread : List String
  params : Params
deriving DecidableEq

def Request.made (params : Params) : Request := ⟨[], params⟩

inductive Response
  | wallet (descriptor name : String)
  | walletUnload (descriptor name : String)
  | signer (name fingerprint : String)
  | signerUnload (name fingerprint : String)
  | empty

variable (lib : Library) (s : State) (w : World) (assetId : String) (srv : Server)

/-- The `AssetInsert` request of registry data. -/
def insertRequest (d : RegistryAssetData) : Request :=
  .made (.assetInsert (lib.assetId.toStr d.assetId) (d.contract.contractStr lib.hashing)
    (lib.transaction.toStr d.issuanceTx))

def AppAsset.request : AppAsset → Option Request
  | .registryAsset d => some (insertRequest lib d)
  | _ => none

def AppSigner.request (name : String) (s : AppSigner) : Request :=
  match s.inner with
  | .jadeId id => .made (.signerLoadJade name (lib.xkeyIdentifier.toStr id) none)
  | .availableSigner (.software sw) =>
    .made (.signerLoadSoftware name (lib.mnemonic.toStr sw.mnemonic) s.persist)
  | .availableSigner (.jade id) =>
    .made (.signerLoadJade name (lib.xkeyIdentifier.toStr id) none)
  | .externalSigner f => .made (.signerLoadExternal name (lib.fingerprint.toStr f))

/-- The requests that set the memos of all wallets. -/
def Memos.requests {K : Type} (request : String → K → String → Request) (m : Memos K) :
    List Request :=
  m.toPairs.flatMap fun e => e.2.toPairs.map fun p => request e.1 p.1 p.2

/-- `State::as_requests`, in the order of the maps. -/
def State.asRequests : List Request :=
  (s.wollets.toPairs.map fun e => .made (.walletLoad (lib.descriptor.toStr e.2) e.1)) ++
  (s.txMemos.requests fun name txid memo =>
    .made (.walletSetTxMemo name (lib.txid.toStr txid) memo)) ++
  (s.addrMemos.requests fun name address memo =>
    .made (.walletSetAddrMemo name (lib.address.toStr address) memo)) ++
  (s.signers.toPairs.map fun e => e.2.request lib e.1) ++
  s.assets.values.filterMap (·.request lib)

/-! ## Handlers -/

/-- The server: its state, its file, and whether a panic has poisoned the lock of the state. -/
structure Server where
  state : State
  file : List Request
  poisoned : Bool

abbrev Handler := EStateM Error Server

def lock : Handler State := do
  let srv ← get
  ensureElse (!srv.poisoned) .poisonError
  pure srv.state

def putState : Handler Unit := modify fun srv => { srv with state := s }

def persist (r : Request) : Handler Unit :=
  modify fun srv => if srv.state.doPersist then { srv with file := srv.file ++ [r] } else srv

/-- `State::persist_all`, which does not ask whether to persist. -/
def persistAll : Handler Unit :=
  modify fun srv => { srv with file := srv.state.asRequests lib }

def openWollet (config : Config) (descriptor : String) : Except Error WolletDescriptor := do
  let desc ← (lib.descriptor.fromStr descriptor).mapError fun e => .wollet (.generic e)
  require (decide (lib.isMainnet desc = config.isMainnet))
    (.generic "Descriptor is for the wrong network")
  (lib.build desc).mapError .wollet
  pure desc

def walletLoad (request : Request) (descriptor name : String) : Handler Response := do
  let s ← lock
  let wollet ← liftExcept (openWollet lib s.config descriptor)
  let wollets ← liftExcept (Wollets.insert lib s.wollets name wollet)
  putState { s with wollets }
  persist request
  pure (.wallet descriptor name)

/-- `Wollet::descriptor`, as text. -/
def ctDescriptor (d : WolletDescriptor) : Except Error String :=
  match d.inner with
  | .desc c => .ok (lib.ctDescriptorToString c)
  | .spks _ => .error (.wollet .unsupportedWithoutDescriptor)

def walletUnload (lib : Library) (name : String) : Handler Response := do
  let s ← lock
  let removed ← liftExcept (okOr (s.wollets.lookup name) (.walletNotExist name))
  putState { s with
    wollets := s.wollets.erase name
    txMemos := s.txMemos.erase name
    addrMemos := s.addrMemos.erase name }
  persistAll lib
  let descriptor ← liftExcept (ctDescriptor lib removed)
  pure (.walletUnload descriptor name)

/-- What the three requests that load a signer have in common: `signer_response_from`, then the
insertion. -/
def loadSigner (s : State) (name : String) (signer : AppSigner) : Handler Response := do
  let fingerprint ← liftExcept (signer.fingerprint lib w)
  let signers ← liftExcept (Signers.insert lib w s.signers name signer)
  putState { s with signers }
  pure (.signer name (lib.fingerprint.toStr fingerprint))

def signerLoadSoftware (request : Request) (name mnemonic : String)
    (keep : Bool) : Handler Response := do
  let s ← lock
  let signer ← liftExcept (AppSigner.newSw lib mnemonic s.config.isMainnet keep)
  let response ← loadSigner lib w s name signer
  runIf keep (persist request)
  pure response

def signerLoadJade (request : Request) (name id : String)
    (emulator : Option String) : Handler Response := do
  let s ← lock
  let id ← liftExcept ((lib.xkeyIdentifier.fromStr id).mapError .hexArray)
  let signer ← liftExcept (AppSigner.newJade w id emulator)
  let response ← loadSigner lib w s name signer
  persist request
  pure response

def signerLoadExternal (request : Request) (name fingerprint : String) : Handler Response := do
  let s ← lock
  let fingerprint ← liftExcept ((lib.fingerprint.fromStr fingerprint).mapError .hexArray)
  let response ← loadSigner lib w s name (.newExternal fingerprint)
  persist request
  pure response

/-- The response comes before the file is written: a Jade that does not answer leaves the signer in
the file. -/
def signerUnload (lib : Library) (w : World) (name : String) : Handler Response := do
  let s ← lock
  let removed ← liftExcept (okOr (s.signers.lookup name) (.signerNotExist name))
  putState { s with signers := s.signers.erase name }
  let fingerprint ← liftExcept (removed.fingerprint lib w)
  persistAll lib
  pure (.signerUnload name (lib.fingerprint.toStr fingerprint))

def walletSetTxMemo (request : Request) (name txid memo : String) : Handler Response := do
  let s ← lock
  let _ ← liftExcept (okOr (s.wollets.lookup name) (.walletNotExist name))
  let txid ← liftExcept ((lib.txid.fromStr txid).mapError .hexArray)
  putState { s with txMemos := s.txMemos.set name txid memo }
  persist request
  pure .empty

def walletSetAddrMemo (request : Request) (name address memo : String) : Handler Response := do
  let s ← lock
  let _ ← liftExcept (okOr (s.wollets.lookup name) (.walletNotExist name))
  let address ← liftExcept ((lib.address.fromStr address).mapError .address)
  putState { s with addrMemos := s.addrMemos.set name address memo }
  persist request
  pure .empty

def contractFromStr (contract : String) : Except Error Registry.Contract := do
  let value ← okOr (lib.hashing.jsonFromStr contract) (.serdeJson "contract")
  (Registry.Contract.fromValue value).mapError .registry

/-- The data of an `AssetInsert` request. -/
def insertData (contract issuanceTx : String) : Except Error RegistryAssetData := do
  let assetId ← (lib.assetId.fromStr assetId).mapError .hexArray
  let issuanceTx ← (lib.transaction.fromStr issuanceTx).mapError .elementsEncode
  let contract ← contractFromStr lib contract
  (RegistryAssetData.new lib.hashing assetId issuanceTx contract).mapError .registry

def assetInsert (request : Request) (assetId contract issuanceTx : String) : Handler Response := do
  let s ← lock
  let d ← liftExcept (insertData lib assetId contract issuanceTx)
  putState { s with assets := s.assets.insertData d }
  persist request
  pure .empty

/-- One entry is removed: of an issued asset, the other one stays. -/
def assetRemove : Handler Response := do
  let s ← lock
  let id ← liftExcept ((lib.assetId.fromStr assetId).mapError .hexArray)
  let _ ← liftExcept (okOr (s.assets.lookup id) (.assetNotExist (lib.assetId.toStr id)))
  putState { s with assets := s.assets.erase id }
  persistAll lib
  pure .empty

/-- The data of an asset, from the registry and the chain. -/
def fetchData (id : AssetId) : Except Error RegistryAssetData := do
  let fetched ← (w.fetchWithTx id).mapError .wollet
  let contract ← contractFromStr lib fetched.1
  let issuanceTx ← (lib.transaction.fromStr fetched.2).mapError .elementsEncode
  (RegistryAssetData.new lib.hashing id issuanceTx contract).mapError .registry

/-- What is written is an `AssetInsert`, so that no network is needed to handle it again. -/
def assetFromRegistry : Handler Response := do
  let s ← lock
  let id ← liftExcept ((lib.assetId.fromStr assetId).mapError .hexArray)
  ensureElse (decide (id ∉ s.assets)) (.assetAlreadyInserted assetId)
  let d ← liftExcept (fetchData lib w id)
  putState { s with assets := s.assets.insertData d }
  let asset ← liftExcept
    (okOr ((s.assets.insertData d).lookup id) (.assetNotExist (lib.assetId.toStr id)))
  match asset.request lib with
  | some request => do
      persist request
      pure .empty
  | none => do
      modify fun srv => { srv with poisoned := true }
      throw (.expectFailed "asset")

/-- `inner_method_handler`, for the requests that change the state. -/
def innerMethodHandler (request : Request) : Handler Response :=
  match request.params with
  | .walletLoad descriptor name => walletLoad lib request descriptor name
  | .walletUnload name => walletUnload lib name
  | .signerLoadSoftware name mnemonic keep => signerLoadSoftware lib w request name mnemonic keep
  | .signerLoadJade name id emulator => signerLoadJade lib w request name id emulator
  | .signerLoadExternal name fingerprint => signerLoadExternal lib w request name fingerprint
  | .signerUnload name => signerUnload lib w name
  | .walletSetTxMemo name txid memo => walletSetTxMemo lib request name txid memo
  | .walletSetAddrMemo name address memo => walletSetAddrMemo lib request name address memo
  | .assetInsert assetId contract issuanceTx => assetInsert lib request assetId contract issuanceTx
  | .assetRemove assetId => assetRemove lib assetId
  | .assetFromRegistry assetId => assetFromRegistry lib w assetId

/-- The server after a request, whatever its result. -/
def Server.next (request : Request) : Server :=
  match innerMethodHandler lib w request srv with
  | .ok _ srv' => srv'
  | .error _ srv' => srv'

/-- `App::apply_request`, for a line and its index. -/
def applyRequest (line : Request × Nat) : Except Error Server :=
  match innerMethodHandler lib w line.1 srv with
  | .ok _ srv' => .ok srv'
  | .error e _ => .error (.startStateLoad e (line.2 + 1))

/-- `App::run`: handle the lines of the file in order, then begin to write. -/
def run (config : Config) (file : List Request) : Except Error Server := do
  let srv ← file.zipIdx.foldlM (applyRequest lib w) ⟨.new config, file, false⟩
  pure { srv with state := { srv.state with doPersist := true } }

def Server.start (config : Config) : Server where
  state := { State.new config with doPersist := true }
  file := []
  poisoned := false

/-! ## What a request does -/

inductive Effect
  | addWollet (name : String) (d : WolletDescriptor)
  | dropWollet (name : String)
  | addSigner (name : String) (s : AppSigner)
  | dropSigner (name : String)
  | setTxMemo (name : String) (txid : Txid) (memo : String)
  | setAddrMemo (name : String) (address : Address) (memo : String)
  | addAsset (d : RegistryAssetData)
  | dropAsset (id : AssetId)

def Effect.on : Effect → State
  | .addWollet name d => { s with wollets := AList.insert name d s.wollets }
  | .dropWollet name =>
    { s with
      wollets := s.wollets.erase name
      txMemos := s.txMemos.erase name
      addrMemos := s.addrMemos.erase name }
  | .addSigner name signer => { s with signers := AList.insert name signer s.signers }
  | .dropSigner name => { s with signers := s.signers.erase name }
  | .setTxMemo name txid memo => { s with txMemos := s.txMemos.set name txid memo }
  | .setAddrMemo name address memo => { s with addrMemos := s.addrMemos.set name address memo }
  | .addAsset d => { s with assets := s.assets.insertData d }
  | .dropAsset id => { s with assets := s.assets.erase id }

inductive Write
  | nothing
  | append (r : Request)
  | rewrite
  /-- A panic, after which nothing is handled any more. -/
  | poison

/-- A signer is loaded if it has a fingerprint and fits in. -/
def signerLoaded (s : State) (name : String) (signer : AppSigner)
    (write : Write) : Except Error (Effect × Write) := do
  let _ ← signer.fingerprint lib w
  let _ ← Signers.insert lib w s.signers name signer
  pure (.addSigner name signer, write)

/-- The checks of a request, and what it does if they pass. -/
def outcome (s : State) (r : Request) : Except Error (Effect × Write) :=
  match r.params with
  | .walletLoad descriptor name => do
      let d ← openWollet lib s.config descriptor
      let _ ← Wollets.insert lib s.wollets name d
      pure (.addWollet name d, .append r)
  | .walletUnload name => do
      let _ ← okOr (s.wollets.lookup name) (.walletNotExist name)
      pure (.dropWollet name, .rewrite)
  | .signerLoadSoftware name mnemonic keep => do
      let signer ← AppSigner.newSw lib mnemonic s.config.isMainnet keep
      signerLoaded lib w s name signer (if keep then .append r else .nothing)
  | .signerLoadJade name id emulator => do
      let id ← (lib.xkeyIdentifier.fromStr id).mapError .hexArray
      let signer ← AppSigner.newJade w id emulator
      signerLoaded lib w s name signer (.append r)
  | .signerLoadExternal name fingerprint => do
      let fingerprint ← (lib.fingerprint.fromStr fingerprint).mapError .hexArray
      signerLoaded lib w s name (.newExternal fingerprint) (.append r)
  | .signerUnload name => do
      let removed ← okOr (s.signers.lookup name) (.signerNotExist name)
      pure (.dropSigner name, if (removed.fingerprint lib w).isOk then .rewrite else .nothing)
  | .walletSetTxMemo name txid memo => do
      let _ ← okOr (s.wollets.lookup name) (.walletNotExist name)
      let txid ← (lib.txid.fromStr txid).mapError .hexArray
      pure (.setTxMemo name txid memo, .append r)
  | .walletSetAddrMemo name address memo => do
      let _ ← okOr (s.wollets.lookup name) (.walletNotExist name)
      let address ← (lib.address.fromStr address).mapError .address
      pure (.setAddrMemo name address memo, .append r)
  | .assetInsert assetId contract issuanceTx => do
      let d ← insertData lib assetId contract issuanceTx
      pure (.addAsset d, .append r)
  | .assetRemove assetId => do
      let id ← (lib.assetId.fromStr assetId).mapError .hexArray
      let _ ← okOr (s.assets.lookup id) (.assetNotExist (lib.assetId.toStr id))
      pure (.dropAsset id, .rewrite)
  | .assetFromRegistry assetId => do
      let id ← (lib.assetId.fromStr assetId).mapError .hexArray
      require (decide (id ∉ s.assets)) (.assetAlreadyInserted assetId)
      let d ← fetchData lib w id
      pure (.addAsset d, if d.tokenId = d.assetId then .poison else .append (insertRequest lib d))

def Server.after (o : Effect × Write) : Server :=
  let state := o.1.on srv.state
  match o.2 with
  | .nothing => { srv with state }
  | .append r =>
    { srv with state, file := if srv.state.doPersist then srv.file ++ [r] else srv.file }
  | .rewrite => { srv with state, file := state.asRequests lib }
  | .poison => { srv with state, poisoned := true }

/-! ## Handlers have that outcome -/

section Answers

variable {lib : Library} {w : World} {srv : Server} {r : Request} {α : Type}

/-- A handler fails with the state it found, or makes the change of an outcome. After the change it
fails only if it had not to append. -/
def Answers (lib : Library) (srv : Server) (o : Except Error (Effect × Write))
    (x : EStateM.Result Error Server Response) : Prop :=
  match o with
  | .error e => x = .error e srv
  | .ok o =>
    (∃ response, x = .ok response (srv.after lib o)) ∨
      (∀ line, o.2 ≠ .append line) ∧ ∃ e, x = .error e (srv.after lib o)

theorem answers_bind {x : Except Error α} {f : α → Handler Response}
    {g : α → Except Error (Effect × Write)} (h : ∀ a, x = .ok a → Answers lib srv (g a) (f a srv)) :
    Answers lib srv (x >>= g) ((liftExcept x >>= f) srv) := by
  cases hx : x with
  | ok a => exact h a hx
  | error e => rfl

theorem answers_locked (hlock : srv.poisoned = false) {o : Except Error (Effect × Write)}
    {f : State → Handler Response} (h : Answers lib srv o (f srv.state srv)) :
    Answers lib srv o ((lock >>= f) srv) := by
  have hopen : ensureElse (!srv.poisoned) Error.poisonError srv = .ok () srv :=
    ensureElse_ok_iff.2 ⟨by simp [hlock], rfl⟩
  have hget : lock srv = .ok srv.state srv :=
    bind_ok_iff.2 ⟨srv, srv, rfl, bind_ok_iff.2 ⟨(), srv, hopen, rfl⟩⟩
  show Answers lib srv o (EStateM.bind lock f srv)
  rwa [EStateM.bind, hget]

theorem ensureElse_eq (ok : Bool) (e : Error) :
    (ensureElse ok e : Handler Unit) = liftExcept (require ok e) := by
  cases ok <;> rfl

theorem put_persist (s : State) (a : α) :
    (putState s >>= fun _ => persist r >>= fun _ => pure a) srv =
      .ok a { srv with state := s, file := if s.doPersist then srv.file ++ [r] else srv.file } := by
  show EStateM.Result.ok a (if s.doPersist then _ else _) = _
  cases s.doPersist <;> rfl

theorem answers_loadSigner {name : String} {signer : AppSigner} {write : Write}
    {f : Response → Handler Response}
    (hf : ∀ response, Answers lib srv (.ok (.addSigner name signer, write))
      (f response { srv with state := (Effect.addSigner name signer).on srv.state })) :
    Answers lib srv (signerLoaded lib w srv.state name signer write)
      ((loadSigner lib w srv.state name signer >>= f) srv) := by
  simp only [loadSigner, bind_assoc, pure_bind]
  apply answers_bind
  intro fingerprint _
  apply answers_bind
  intro signers hsigners
  obtain ⟨-, rfl⟩ := insertNew_ok_iff.1 hsigners
  exact hf _

theorem answers_persist {e : Effect} {response : Response} : Answers lib srv (.ok (e, .append r))
      ((persist r >>= fun _ => pure response) { srv with state := e.on srv.state }) := by
  have hkeep : (e.on srv.state).doPersist = srv.state.doPersist := by cases e <;> rfl
  refine .inl ⟨response, ?_⟩
  have h : (putState (e.on srv.state) >>= fun _ => persist r >>= fun _ => pure response) srv = _ :=
    put_persist _ _
  rw [hkeep] at h
  exact h

theorem fetchData_assetId {id : AssetId} {d : RegistryAssetData}
    (h : fetchData lib w id = .ok d) : d.assetId = id := by
  obtain ⟨fetched, -, h⟩ := except_bind_ok_iff.1 h
  obtain ⟨contract, -, h⟩ := except_bind_ok_iff.1 h
  obtain ⟨issuanceTx, -, h⟩ := except_bind_ok_iff.1 h
  exact (RegistryAssetData.new_ok (mapError_ok_iff.1 h)).1

theorem lookup_insertData (m : Assets) (d : RegistryAssetData) (k : AssetId) :
    (m.insertData d).lookup k =
      if k = d.tokenId then some (.reissuanceToken d)
      else if k = d.assetId then some (.registryAsset d) else m.lookup k := by
  rw [Assets.insertData]
  by_cases htoken : k = d.tokenId
  · rw [if_pos htoken, htoken, AList.lookup_insert]
  · rw [if_neg htoken, AList.lookup_insert_ne htoken]
    by_cases hasset : k = d.assetId
    · rw [if_pos hasset, hasset, AList.lookup_insert]
    · rw [if_neg hasset, AList.lookup_insert_ne hasset]

theorem next_poisoned (hlock : srv.poisoned = true) : srv.next lib w r = srv := by
  have hclosed (f : State → Handler Response) : (lock >>= f) srv = .error .poisonError srv := by
    refine bind_error_iff.2 (.inl (bind_error_iff.2 (.inr ⟨srv, srv, rfl, ?_⟩)))
    refine bind_error_iff.2 (.inl (ensureElse_error_iff.2 ⟨by simp [hlock], rfl, rfl⟩))
  have hfails : innerMethodHandler lib w r srv = .error .poisonError srv := by
    obtain ⟨unread, params⟩ := r
    cases params <;> exact hclosed _
  rw [Server.next, hfails]

variable (hlock : srv.poisoned = false)

include hlock

/-- **A handler makes the change of its outcome.** -/
theorem handler_answers :
    Answers lib srv (outcome lib w srv.state r) (innerMethodHandler lib w r srv) := by
  obtain ⟨unread, params⟩ := r
  cases params with
  | walletLoad descriptor name =>
    apply answers_locked hlock
    apply answers_bind
    intro d _
    apply answers_bind
    intro wollets hwollets
    obtain ⟨-, rfl⟩ := insertNew_ok_iff.1 hwollets
    exact .inl ⟨_, put_persist _ _⟩
  | walletUnload name =>
    apply answers_locked hlock
    apply answers_bind
    intro removed _
    -- the file is written before the descriptor of the response is asked for
    show Answers _ _ _ ((liftExcept (ctDescriptor lib removed) >>= _) _)
    cases hdesc : ctDescriptor lib removed with
    | ok descriptor => exact .inl ⟨_, rfl⟩
    | error e => exact .inr ⟨(fun _ h => nomatch h), e, rfl⟩
  | signerLoadSoftware name mnemonic keep =>
    apply answers_locked hlock
    apply answers_bind
    intro signer _
    apply answers_loadSigner
    intro response
    cases keep with
    | true => exact answers_persist
    | false => exact .inl ⟨response, rfl⟩
  | signerLoadJade name id emulator =>
    apply answers_locked hlock
    apply answers_bind
    intro id _
    apply answers_bind
    intro signer _
    apply answers_loadSigner
    intro response
    exact answers_persist
  | signerLoadExternal name fingerprint =>
    apply answers_locked hlock
    apply answers_bind
    intro fingerprint _
    apply answers_loadSigner
    intro response
    exact answers_persist
  | signerUnload name =>
    apply answers_locked hlock
    apply answers_bind
    intro removed _
    show Answers _ _ (.ok (_, if (removed.fingerprint lib w).isOk then _ else _))
      ((liftExcept (removed.fingerprint lib w) >>= _) _)
    cases hprint : removed.fingerprint lib w with
    | ok fingerprint => exact .inl ⟨_, rfl⟩
    | error e => exact .inr ⟨(fun _ h => nomatch h), e, rfl⟩
  | walletSetTxMemo name text memo | walletSetAddrMemo name text memo =>
    apply answers_locked hlock
    apply answers_bind
    intro wollet _
    apply answers_bind
    intro read _
    exact .inl ⟨_, put_persist _ _⟩
  | assetInsert assetId contract issuanceTx =>
    apply answers_locked hlock
    apply answers_bind
    intro d _
    exact .inl ⟨_, put_persist _ _⟩
  | assetRemove assetId =>
    apply answers_locked hlock
    apply answers_bind
    intro id _
    apply answers_bind
    intro asset _
    exact .inl ⟨_, rfl⟩
  | assetFromRegistry assetId =>
    apply answers_locked hlock
    apply answers_bind
    intro id _
    rw [ensureElse_eq]
    apply answers_bind
    intro _ _
    apply answers_bind
    intro d hd
    have hid := fetchData_assetId hd
    -- the entry just inserted is read back, and it is the token's if the two ids are one
    show Answers _ _ _ ((liftExcept (okOr ((srv.state.assets.insertData d).lookup id) _) >>= _) _)
    rw [lookup_insertData, hid]
    by_cases hcollide : id = d.tokenId
    · rw [if_pos hcollide, if_pos hcollide.symm]
      exact .inr ⟨(fun _ h => nomatch h), _, rfl⟩
    · rw [if_neg hcollide, if_pos rfl, if_neg (Ne.symm hcollide)]
      exact answers_persist

/-- **The server after a request.** -/
theorem next_eq : srv.next lib w r =
      match outcome lib w srv.state r with
      | .ok o => srv.after lib o
      | .error _ => srv := by
  have h : Answers lib srv (outcome lib w srv.state r) _ := handler_answers hlock
  rw [Server.next]
  cases ho : outcome lib w srv.state r with
  | ok o =>
    rw [ho] at h
    rcases h with ⟨response, h⟩ | ⟨-, e, h⟩ <;> rw [h]
  | error e =>
    rw [ho] at h
    have hx : innerMethodHandler lib w r srv = .error e srv := h
    rw [hx]

theorem handler_ok {e : Effect} {line : Request}
    (ho : outcome lib w srv.state r = .ok (e, .append line)) : ∃ response,
      innerMethodHandler lib w r srv = .ok response (srv.after lib (e, .append line)) := by
  have h : Answers lib srv (outcome lib w srv.state r) _ := handler_answers hlock
  rw [ho] at h
  rcases h with h | ⟨hno, -⟩
  · exact h
  · exact absurd rfl (hno line)

theorem handler_error {e : Error} (ho : outcome lib w srv.state r = .error e) :
    innerMethodHandler lib w r srv = .error e srv := by
  have h : Answers lib srv (outcome lib w srv.state r) _ := handler_answers hlock
  rw [ho] at h
  exact h

end Answers

end Swk.App
