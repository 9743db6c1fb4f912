import Swk.SwapData

/-!
# Following a Boltz swap to its end

`advance` takes one status update of the server, acts on it and files the swap as completed when the
update ends it. Two kinds of swaps lock up coins of the user: payments of an invoice (submarine
swaps) and swaps between chains. A restored swap whose last state is terminal is filed at once.

Filing a swap means that nobody looks after it any more, so by then Boltz should have earned the
lockup, or a refund should be out. That fails where the code gives up: on `swap.expired`, on an
invoice that was not paid while the chain client does not show the lockup, and on restoring data
whose last state is terminal for another reason. `advance` remembers the state of an update that it
did not expect, and `set_lockup_txid` and `serialize` save it; what Boltz says has ended does not
say what the user has claimed or taken back.

`Following` is the part of `advance` and of restoring that both kinds share; `preparePay` and
`lockup` are its two instances. The invariant is about all data a swap may be restored from: those
in memory, in the store and in every copy (`RunKind.saved_inv`).
-/

namespace Swk.Boltz

/-! ## What a call is answered -/

/-- `SwapStatus`: the update and the transaction it names. -/
structure SwapStatus where
  status : String
  transaction : Option String

/-- `ControlFlow<bool, SwapStatus>`. -/
inductive ControlFlow
  | continueWith (update : SwapStatus)
  | breakWith (success : Bool)

def ControlFlow.isBreak : ControlFlow → Bool
  | .continueWith _ => false
  | .breakWith _ => true

inductive Fee
  | absolute (sats : UInt64)
  /-- The rate, in hundredths of a satoshi. -/
  | relative (rate : Nat)

abbrev BtcLikeTransaction := List UInt8

/-- What the server, the chain and the store answer during one call. Where the call tries several
times, each attempt has its answer. -/
structure Outcomes where
  nextStatus : Except Error SwapStatus
  waitForChainTx : String → Except Error Unit
  fetchLockupTxid : Option String
  lockupUtxoExists : Except Error Bool
  cooperativeClaim : Except String Unit
  parseLockupTransaction : String → Except Error Unit
  constructRefund : Fee → Nat → Except Error BtcLikeTransaction
  constructClaim : Bool → Fee → Except Error BtcLikeTransaction
  broadcastTx : BtcLikeTransaction → Nat → Except Error String
  /-- The scripts of a restored swap are built and its updates subscribed to. -/
  subscribed : Except Error Unit
  persist : Except Error Unit
  moveToCompleted : Except Error Unit

/-- The first attempt of so many that succeeds. -/
def retry {α : Type} (times : Nat) (attempt : Nat → Except Error α) (e : Error) : Except Error α :=
  okOr ((List.range times).findSome? fun n => (attempt n).toOption) e

def broadcastTxWithRetry (o : Outcomes) (tx : BtcLikeTransaction) (swapId : String) :
    Except Error String :=
  retry 30 (o.broadcastTx tx) (.retryBroadcastFailed swapId)

/-! ## A swap and its record -/

/-- A swap that is followed, what the store has of it, and whether the last call filed it as
completed. -/
structure Following (Data Stored : Type) where
  data : Data
  polling : Bool
  stored : Option Stored
  filed : Bool

/-- What differs between the kinds of swaps. -/
structure Kind (Data Stored : Type) where
  lastState : Data → SwapState
  withState : SwapState → Data → Data
  serializable : Data → Stored
  /-- The effect of an update. An error that is returned early is thrown; one that the update
  itself amounts to is the result. -/
  flow : Outcomes → SwapStatus → SwapState → EStateM Error Data (Except Error ControlFlow)
  toData : Stored → Except Error Data
  withLockupTxid : Option String → Data → Data
  setLockupTxid : String → Data → Data

namespace Kind

variable {Data Stored : Type}

variable (k : Kind Data Stored) (o : Outcomes)

/-- The end of `advance`: remember the state and store it, file a swap that has ended. -/
def conclude (state : SwapState) (flow : Except Error ControlFlow) (s : Following Data Stored) :
    Following Data Stored × Except Error ControlFlow :=
  match flow with
  | .error e => ({ s with data := k.withState state s.data }, .error e)
  | .ok flow =>
    let s := { s with data := k.withState state s.data, polling := s.polling || flow.isBreak }
    match o.persist with
    | .error e => (s, .error e)
    | .ok () =>
      let s := { s with stored := some (k.serializable s.data) }
      if flow.isBreak then
        match o.moveToCompleted with
        | .error e => (s, .error e)
        | .ok () => ({ s with filed := true }, .ok flow)
      else (s, .ok flow)

def advance (s : Following Data Stored) : Following Data Stored × Except Error ControlFlow :=
  let s := { s with filed := false }
  match o.nextStatus with
  | .error e => (s, .error e)
  | .ok update =>
    match BoltzSession.swapState update.status with
    | .error e => (s, .error e)
    | .ok state =>
      match k.flow o update state s.data with
      | .error e data => ({ s with data }, .error e)
      | .ok flow data => k.conclude o state flow { s with data }

/-- `set_lockup_txid`, with what is in memory stored. -/
def storeLockupTxid (txid : String) (s : Following Data Stored) :
    Following Data Stored × Except Error Unit :=
  let s := { s with data := k.setLockupTxid txid s.data, filed := false }
  match o.persist with
  | .error e => (s, .error e)
  | .ok () => ({ s with stored := some (k.serializable s.data) }, .ok ())

/-- `restore_prepare_pay` and `restore_lockup`. -/
def restore (polling : Bool) (stored : Stored)
    (s : Following Data Stored) : Following Data Stored × Except Error Unit :=
  let s := { s with filed := false }
  match k.toData stored with
  | .error e => (s, .error e)
  | .ok data =>
    let data := k.withLockupTxid o.fetchLockupTxid data
    match o.subscribed with
    | .error e => (s, .error e)
    | .ok () =>
      if (k.lastState data).isTerminal then
        match o.moveToCompleted with
        | .error e => (s, .error e)
        | .ok () => ({ s with data, polling, filed := true }, .ok ())
      else ({ s with data, polling }, .ok ())

end Kind

/-! ## Payments of an invoice -/

namespace PreparePayData

/-- `fetch_lockup_txid` and the wait for what it finds, when no lockup is known. -/
def fetchLockup (o : Outcomes) : EStateM Error PreparePayData Unit := do
  let data ← get
  match data.lockupTxid, o.fetchLockupTxid with
  | none, some txid => do
      liftExcept (o.waitForChainTx txid)
      modify fun data => { data with lockupTxid := some txid }
  | _, _ => pure ()

/-- `make_refund_tx_with_retry`, and the broadcast. -/
def refund (o : Outcomes) : EStateM Error PreparePayData Unit := do
  let data ← get
  let swapId := data.createSwapResponse.id
  let tx ← liftExcept
    (retry 5 (o.constructRefund (.relative 12)) (.failBuildingRefundTransaction swapId))
  let txid ← liftExcept (broadcastTxWithRetry o tx swapId)
  modify fun data => { data with refundTxid := some txid }

/-- `handle_cooperative_claim`. `notEligible` says whether the server's error reads "swap not
eligible for a cooperative claim". -/
def handleCooperativeClaim (notEligible : String → Bool) (o : Outcomes) (data : PreparePayData)
    (update : SwapStatus) : Except Error ControlFlow :=
  if data.bolt11Invoice.isSome || data.bolt12Invoice.isSome then
    match o.cooperativeClaim with
    | .ok () => .ok (.continueWith update)
    | .error e => if notEligible e then .ok (.breakWith true) else .error (.boltzApi e)
  else .ok (.breakWith true)

/-- The effect of an update on a payment. -/
def flow (notEligible : String → Bool) (o : Outcomes) (update : SwapStatus) (state : SwapState) :
    EStateM Error PreparePayData (Except Error ControlFlow) :=
  match state with
  | .invoiceSet | .transactionConfirmed | .invoicePending | .invoicePaid =>
    pure (.ok (.continueWith update))
  | .transactionMempool =>
    match update.transaction with
    | some txid => do
        liftExcept (o.waitForChainTx txid)
        modify fun data => { data with lockupTxid := some txid }
        return .ok (.continueWith update)
    | none => pure (.ok (.continueWith update))
  | .invoiceFailedToPay => do
      let utxoExists ← liftExcept o.lockupUtxoExists
      if utxoExists then do
        refund o
        return .ok (.breakWith true)
      else return .ok (.breakWith false)
  | .transactionLockupFailed => do
      refund o
      return .ok (.breakWith true)
  | .transactionClaimPending => do
      let data ← get
      return handleCooperativeClaim notEligible o data update
  | .transactionClaimed => do
      fetchLockup o
      return .ok (.breakWith true)
  | .swapExpired => pure (.ok (.breakWith false))
  | state => do
      let data ← get
      return .error (.unexpectedUpdate data.createSwapResponse.id state.toString data.lastState)

end PreparePayData

/-- `PreparePayResponse`, in a session. -/
def preparePay (c : Crypto) (notEligible : String → Bool) (session : BoltzSession) :
    Kind PreparePayData PreparePayDataSerializable where
  lastState := PreparePayData.lastState
  withState := fun lastState data => { data with lastState }
  serializable := PreparePayData.serializable c
  flow := PreparePayData.flow notEligible
  toData := fun stored => toPreparePayData c stored session.mnemonic session.chain
  withLockupTxid := fun txid data => { data with lockupTxid := data.lockupTxid.or txid }
  setLockupTxid := fun txid data => { data with lockupTxid := some txid }

/-! ## Swaps between chains -/

def liquidUncooperativeExtra : UInt64 := 3

namespace ChainSwapData

/-- The fee of the claim, as quoted if it is known. -/
def claimTxFee (data : ChainSwapData) : Fee :=
  match data.claimFee with
  | some claimFee =>
    let extra := match data.toChain with
      | .liquid _ => liquidUncooperativeExtra
      | .bitcoin _ => 0
    .absolute (claimFee + extra)
  | none => .relative 100

variable (o : Outcomes)

def buildAndBroadcastClaim (cooperative : Bool) : EStateM Error ChainSwapData Unit := do
  let data ← get
  let tx ← liftExcept (o.constructClaim cooperative data.claimTxFee)
  let txid ← liftExcept (broadcastTxWithRetry o tx data.createChainResponse.id)
  modify fun data => { data with claimTxid := some txid }

def buildAndBroadcastRefund : EStateM Error ChainSwapData Unit := do
  let data ← get
  let tx ← liftExcept (o.constructRefund (.relative 100) 0)
  let txid ← liftExcept (broadcastTxWithRetry o tx data.createChainResponse.id)
  modify fun data => { data with refundTxid := some txid }

/-- `fetch_lockup_txid` and the wait for what it finds, when no lockup is known. -/
def fetchLockup : EStateM Error ChainSwapData Unit := do
  let data ← get
  match data.lockupTxid, o.fetchLockupTxid with
  | none, some txid => do
      liftExcept (o.waitForChainTx txid)
      modify fun data => { data with lockupTxid := some txid }
  | _, _ => pure ()

/-- The checks of what the server locked up. -/
def checkServerLockup (transaction : Option String) : EStateM Error ChainSwapData Unit :=
  match transaction with
  | some txid => do
      liftExcept (o.parseLockupTransaction txid)
      liftExcept (o.waitForChainTx txid)
  | none => pure ()

/-- The effect of an update on a swap between chains. -/
def flow (update : SwapStatus) (state : SwapState) :
    EStateM Error ChainSwapData (Except Error ControlFlow) :=
  match state with
  | .swapCreated | .serverTransactionMempool => pure (.ok (.continueWith update))
  | .transactionMempool => do
      modify fun data => { data with lockupTxid := update.transaction }
      return .ok (.continueWith update)
  | .transactionConfirmed => do
      modify fun data => { data with lockupTxid := data.lockupTxid.or update.transaction }
      return .ok (.continueWith update)
  | .serverTransactionConfirmed => do
      checkServerLockup o update.transaction
      buildAndBroadcastClaim o true
      return .ok (.continueWith update)
  | .transactionClaimed => do
      fetchLockup o
      let data ← get
      if data.claimTxid.isSome then return .ok (.breakWith true)
      else do
        buildAndBroadcastClaim o false
        return .ok (.breakWith true)
  | .transactionLockupFailed | .transactionFailed | .transactionRefunded => do
      buildAndBroadcastRefund o
      return .ok (.breakWith true)
  | .swapExpired => pure (.ok (.breakWith false))
  | state => do
      let data ← get
      return .error (.unexpectedUpdate data.createChainResponse.id state.toString data.lastState)

end ChainSwapData

/-- `LockupResponse`, in a session. -/
def lockup (c : Crypto) (session : BoltzSession) :
    Kind ChainSwapData ChainSwapDataSerializable where
  lastState := ChainSwapData.lastState
  withState := fun lastState data => { data with lastState }
  serializable := ChainSwapData.serializable c
  flow := ChainSwapData.flow
  toData := fun stored => toChainData c stored session.mnemonic
  withLockupTxid := fun txid data => { data with lockupTxid := data.lockupTxid.or txid }
  setLockupTxid := fun txid data => { data with lockupTxid := some txid }

/-! ## What Boltz knows of a swap -/

structure ClaimDetails where
  tree : String
  keyIndex : UInt32
  lockupAddress : String
  serverPublicKey : String
  timeoutBlockHeight : UInt32
  amount : Option UInt64
  blindingKey : Option String

/-- `RefundDetails`, with the txid of the lockup. -/
structure RefundDetails where
  tree : String
  keyIndex : UInt32
  transaction : Option String
  lockupAddress : String
  serverPublicKey : String
  timeoutBlockHeight : UInt32
  blindingKey : Option String

structure SwapRestoreResponse where
  id : String
  swapType : SwapType
  status : String
  fromChain : String
  toChain : String
  claimDetails : Option ClaimDetails
  refundDetails : Option RefundDetails

/-- A kind of swap as `{:?}` shows it. -/
def SwapType.debug : SwapType → String
  | .submarine => "Submarine"
  | .reverse => "Reverse"
  | .chain => "Chain"

namespace SwapRestoreResponse

/-- An error about the swap. -/
def restoration (e : SwapRestoreResponse) (msg : String) : Error := .swapRestoration (some e.id) msg

def lastState (e : SwapRestoreResponse) : Except Error SwapState :=
  (SwapState.fromStr e.status).mapError fun err =>
    e.restoration ("Failed to parse status '" ++ e.status ++ "' as SwapState: " ++ err)

/-- `convert_swap_restore_response_to_prepare_pay_data`. -/
def toPreparePayData (c : Crypto) (e : SwapRestoreResponse) (mnemonic : Mnemonic)
    (refundAddress : String) (defaultFromChain : Chain) : Except Error PreparePayData := do
  require (e.swapType = .submarine) (e.restoration
    ("Only submarine swaps are supported for restoration, got: " ++ e.swapType.debug))
  let refundDetails ← okOr e.refundDetails
    (e.restoration "Submarine swap is missing refund_details")
  let ourKeys ← deriveKeypair c refundDetails.keyIndex mnemonic
  let claimPublicKey ← (c.publicKeyFromStr refundDetails.serverPublicKey).mapError fun err =>
    e.restoration ("Failed to parse server public key: " ++ err)
  let lastState ← e.lastState
  let fromChain ← submarineChainFromStr e.fromChain defaultFromChain (some e.id)
  let mnemonicIdentifier ← mnemonicIdentifier c mnemonic
  return {
    lastState
    swapType := .submarine
    lockupTxid := none
    refundTxid := none
    fee := none
    bolt11Invoice := none
    bolt12Invoice := none
    ourKeys
    refundAddress
    createSwapResponse := {
      acceptZeroConf := false
      address := refundDetails.lockupAddress
      bip21 := ""
      claimPublicKey
      expectedAmount := 0
      id := e.id
      referralId := none
      swapTree := refundDetails.tree
      timeoutBlockHeight := refundDetails.timeoutBlockHeight.toUInt64
      blindingKey := refundDetails.blindingKey }
    keyIndex := refundDetails.keyIndex
    mnemonicIdentifier
    boltzFee := none
    fromChain }

/-- `convert_swap_restore_response_to_chain_swap_data`. -/
def toChainSwapData (c : Crypto) (e : SwapRestoreResponse) (mnemonic : Mnemonic)
    (claimAddress refundAddress : String) : Except Error ChainSwapData := do
  require (e.swapType = .chain) (e.restoration
    ("Only chain swaps are supported for restoration, got: " ++ e.swapType.debug))
  let claimDetails ← okOr e.claimDetails (e.restoration "Chain swap is missing claim_details")
  let refundDetails ← okOr e.refundDetails (e.restoration "Chain swap is missing refund_details")
  let claimKeys ← deriveKeypair c claimDetails.keyIndex mnemonic
  let refundKeys ← deriveKeypair c refundDetails.keyIndex mnemonic
  let fromChain ← chainFromStr e.fromChain (some e.id)
  let toChain ← chainFromStr e.toChain (some e.id)
  let claimServerPubkey ← (c.publicKeyFromStr claimDetails.serverPublicKey).mapError fun err =>
    e.restoration ("Failed to parse claim server public key: " ++ err)
  let refundServerPubkey ← (c.publicKeyFromStr refundDetails.serverPublicKey).mapError fun err =>
    e.restoration ("Failed to parse refund server public key: " ++ err)
  let lastState ← e.lastState
  let mnemonicIdentifier ← mnemonicIdentifier c mnemonic
  return {
    lastState
    swapType := .chain
    fee := none
    boltzFee := none
    claimFee := none
    createChainResponse := {
      id := e.id
      claimDetails := {
        swapTree := claimDetails.tree
        lockupAddress := claimDetails.lockupAddress
        serverPublicKey := claimServerPubkey
        timeoutBlockHeight := claimDetails.timeoutBlockHeight
        amount := claimDetails.amount.getD 0
        blindingKey := claimDetails.blindingKey
        refundAddress := none
        claimAddress := none
        bip21 := none }
      lockupDetails := {
        swapTree := refundDetails.tree
        lockupAddress := refundDetails.lockupAddress
        serverPublicKey := refundServerPubkey
        timeoutBlockHeight := refundDetails.timeoutBlockHeight
        amount := 0
        blindingKey := refundDetails.blindingKey
        refundAddress := none
        claimAddress := none
        bip21 := none } }
    claimKeys
    refundKeys
    preimage := preimageFromKeypair c claimKeys
    lockupAddress := refundDetails.lockupAddress
    expectedLockupAmount := 0
    claimAddress
    refundAddress
    claimKeyIndex := claimDetails.keyIndex
    refundKeyIndex := refundDetails.keyIndex
    mnemonicIdentifier
    fromChain
    toChain
    randomPreimage := false
    claimTxid := none
    lockupTxid := refundDetails.transaction
    refundTxid := none }

end SwapRestoreResponse

/-! ## Runs -/

/-- The statuses of a payment that was made. -/
def SwapState.reportsPaid : SwapState → Bool
  | .transactionClaimPending | .transactionClaimed => true
  | _ => false

/-- Whether a text is one of those statuses. -/
def reportsPaid (status : String) : Bool :=
  match SwapState.fromStr status with
  | .ok state => state.reportsPaid
  | .error _ => false

/-- Where a swap is restored from. -/
inductive Source
  /-- What the app has stored. -/
  | store
  /-- What a call of `serialize` has returned. -/
  | copy (i : Nat)
  /-- What Boltz knows, with new addresses of the user. -/
  | response (e : SwapRestoreResponse) (claimAddress refundAddress : String)

def Source.isResponse : Source → Bool
  | .response _ _ _ => true
  | _ => false

def Source.reportsPaid : Source → Bool
  | .response e _ _ => Boltz.reportsPaid e.status
  | _ => false

/-- What can happen to a swap that is followed. -/
inductive SwapRunEvent
  | fund
  | advance (o : Outcomes)
  | setLockupTxid (o : Outcomes) (txid : String)
  /-- The user takes the data in memory. -/
  | serialize
  | restore (o : Outcomes) (polling : Bool) (source : Source)

/-- A swap in a run with the data the user has taken, whether its lockup is funded, whether Boltz
has reported that it paid the invoice and claims the lockup, and whether the swap was ever restored
from a response of Boltz. -/
structure SwapRun (Data Stored : Type) where
  following : Following Data Stored
  copies : List Stored
  funded : Bool
  reported : Bool
  responded : Bool

/-- A kind of swap with how it is restored from what Boltz knows. -/
structure RunKind (Data Stored : Type) extends Kind Data Stored where
  fromResponse : SwapRestoreResponse → String → String → Except Error Data

def Outcomes.reportsPaid (o : Outcomes) : Bool :=
  match o.nextStatus with
  | .ok update => Boltz.reportsPaid update.status
  | .error _ => false

section Runs

variable {Data Stored : Type} (k : RunKind Data Stored)

/-- The data to restore from. -/
def RunKind.read (r : SwapRun Data Stored) : Source → Option Stored
  | .store => r.following.stored
  | .copy i => r.copies[i]?
  | .response e claimAddress refundAddress =>
    (k.fromResponse e claimAddress refundAddress).toOption.map k.serializable

def RunKind.next (r : SwapRun Data Stored) : SwapRunEvent → SwapRun Data Stored
  | .fund => { r with following := { r.following with filed := false }, funded := true }
  | .advance o =>
    { r with
      following := (k.advance o r.following).1
      reported := r.reported || o.reportsPaid }
  | .setLockupTxid o txid => { r with following := (k.storeLockupTxid o txid r.following).1 }
  | .serialize =>
    { r with
      following := { r.following with filed := false }
      copies := r.copies ++ [k.serializable r.following.data] }
  | .restore o polling source =>
    { r with
      following := match k.read r source with
        | none => { r.following with filed := false }
        | some stored => (k.restore o polling stored r.following).1
      reported := r.reported || source.reportsPaid
      responded := r.responded || source.isResponse }

/-- A new swap. It is stored, and not funded. -/
def RunKind.start (data : Data) (polling : Bool) : SwapRun Data Stored :=
  ⟨⟨data, polling, some (k.serializable data), false⟩, [], false, false, false⟩

/-- What a new swap leads to. Its first state is not terminal. -/
inductive RunKind.Reached : SwapRun Data Stored → Prop
  | new (data : Data) (polling : Bool) (h : (k.lastState data).isTerminal = false) :
      RunKind.Reached (k.start data polling)
  | next {r : SwapRun Data Stored} (h : RunKind.Reached r) (e : SwapRunEvent) :
      RunKind.Reached (k.next r e)

end Runs

def preparePayRuns (c : Crypto) (notEligible : String → Bool) (session : BoltzSession) :
    RunKind PreparePayData PreparePayDataSerializable where
  toKind := preparePay c notEligible session
  fromResponse := fun e _ refundAddress =>
    e.toPreparePayData c session.mnemonic refundAddress session.chain

def lockupRuns (c : Crypto) (session : BoltzSession) :
    RunKind ChainSwapData ChainSwapDataSerializable where
  toKind := lockup c session
  fromResponse := fun e claimAddress refundAddress =>
    e.toChainSwapData c session.mnemonic claimAddress refundAddress

/-! ## What a call leaves -/

section Calls

variable {Data Stored : Type} {k : Kind Data Stored} {o : Outcomes} {s : Following Data Stored}
  {polling : Bool} {stored : Stored}

/-- An update that was handled: its state, what it amounts to and the data after it. -/
def Kind.Handled (k : Kind Data Stored) (o : Outcomes) (before : Data) (update : SwapStatus)
    (state : SwapState) (flow : ControlFlow) (after : Data) : Prop :=
  o.nextStatus = .ok update ∧ SwapState.fromStr update.status = .ok state ∧
    k.flow o update state before = .ok (.ok flow) after

theorem advance_handled (k : Kind Data Stored) (o : Outcomes) (s : Following Data Stored) :
    (k.advance o s).1.filed = false ∨
      ∃ update state flow data, k.Handled o s.data update state flow data ∧
        (k.advance o s).1.data = k.withState state data ∧
        ((k.advance o s).1.filed = true → flow.isBreak = true) := by
  unfold Kind.advance
  cases hnext : o.nextStatus with
  | error e => exact .inl rfl
  | ok update =>
    dsimp only [BoltzSession.swapState]
    cases hstate : SwapState.fromStr update.status with
    | error e => exact .inl rfl
    | ok state =>
      dsimp only [Except.mapError]
      cases hflow : k.flow o update state s.data with
      | error e data => exact .inl rfl
      | ok flow data =>
        dsimp only [Kind.conclude]
        cases flow with
        | error e => exact .inl rfl
        | ok flow =>
          cases o.persist with
          | error e => exact .inl rfl
          | ok _ =>
            refine .inr ⟨update, state, flow, data, ⟨hnext, hstate, hflow⟩, ?_⟩
            cases o.moveToCompleted <;> cases flow <;> simp [ControlFlow.isBreak]

theorem restore_cases (k : Kind Data Stored) (o : Outcomes) (polling : Bool) (stored : Stored)
    (s : Following Data Stored) : (k.restore o polling stored s).1 = { s with filed := false } ∨
      ∃ data, k.toData stored = .ok data ∧ (k.restore o polling stored s).1 =
        { s with
          data := k.withLockupTxid o.fetchLockupTxid data
          polling
          filed := (k.lastState (k.withLockupTxid o.fetchLockupTxid data)).isTerminal } := by
  unfold Kind.restore
  cases k.toData stored with
  | error e => exact .inl rfl
  | ok data =>
    cases o.subscribed with
    | error e => exact .inl rfl
    | ok _ =>
      dsimp only
      cases hterminal : (k.lastState (k.withLockupTxid o.fetchLockupTxid data)).isTerminal with
      | false => exact .inr ⟨data, rfl, by simp [hterminal]⟩
      | true =>
        cases o.moveToCompleted with
        | error e => exact .inl rfl
        | ok _ => exact .inr ⟨data, rfl, by simp [hterminal]⟩

theorem Kind.Handled.reportsPaid {update : SwapStatus} {state : SwapState} {before after : Data}
    {flow : ControlFlow} (h : k.Handled o before update state flow after) :
    o.reportsPaid = state.reportsPaid := by
  simp only [Outcomes.reportsPaid, h.1, Boltz.reportsPaid, h.2.1]

/-- An event that files the swap, with the data and the report it is filed with. -/
inductive RunKind.Files (k : RunKind Data Stored) (r : SwapRun Data Stored) :
    SwapRunEvent → Data → Bool → Prop
  | advance {o : Outcomes} {update : SwapStatus} {state : SwapState} {flow : ControlFlow}
      {data : Data} (hhandled : k.Handled o r.following.data update state flow data)
      (hbreak : flow.isBreak = true) :
      k.Files r (.advance o) (k.withState state data) (r.reported || state.reportsPaid)
  | restore {o : Outcomes} {polling : Bool} {source : Source} {stored : Stored} {data : Data}
      (hread : k.read r source = some stored) (hdata : k.toData stored = .ok data)
      (hterminal : (k.lastState (k.withLockupTxid o.fetchLockupTxid data)).isTerminal = true) :
      k.Files r (.restore o polling source) (k.withLockupTxid o.fetchLockupTxid data)
        (r.reported || source.reportsPaid)

theorem RunKind.files_of_filed {k : RunKind Data Stored} {r : SwapRun Data Stored}
    {e : SwapRunEvent} (h : (k.next r e).following.filed = true) :
    k.Files r e (k.next r e).following.data (k.next r e).reported ∧
      (k.next r e).funded = r.funded := by
  cases e with
  | fund | serialize => cases h
  | setLockupTxid o txid =>
    unfold RunKind.next Kind.storeLockupTxid at h
    cases hpersist : o.persist <;> simp [hpersist] at h
  | advance o =>
    rcases advance_handled k.toKind o r.following with hnot |
      ⟨update, state, flow, data, hhandled, hdata, hbreak⟩
    · have hfiled : (k.advance o r.following).1.filed = true := h
      rw [hnot] at hfiled
      cases hfiled
    · refine ⟨?_, rfl⟩
      simp only [RunKind.next, hdata, hhandled.reportsPaid]
      exact .advance hhandled (hbreak h)
  | restore o polling source =>
    unfold RunKind.next at h ⊢
    cases hread : k.read r source with
    | none =>
      simp only [hread] at h
      cases h
    | some stored =>
      simp only [hread] at h ⊢
      rcases restore_cases k.toKind o polling stored r.following with hnot | ⟨data, hdata, hafter⟩
      · rw [hnot] at h
        cases h
      · rw [hafter] at h ⊢
        exact ⟨.restore hread hdata h, trivial⟩

/-- What holds of the data in memory, in the store and in every copy, given whether Boltz has
reported a payment and whether the swap was restored from a response of Boltz. -/
structure RunKind.Kept (k : RunKind Data Stored) (Q : Bool → Bool → Stored → Prop)
    (r : SwapRun Data Stored) : Prop where
  data : Q r.reported r.responded (k.serializable r.following.data)
  stored : ∀ stored, r.following.stored = some stored → Q r.reported r.responded stored
  copies : ∀ stored ∈ r.copies, Q r.reported r.responded stored

/-- What a property of saved data needs to be kept, for each way in which data come about. -/
structure RunKind.Keeps (k : RunKind Data Stored) (Q : Bool → Bool → Stored → Prop) : Prop where
  mono : ∀ {a b stored} (a' b' : Bool), Q a b stored → Q (a || a') (b || b') stored
  new : ∀ {data}, (k.lastState data).isTerminal = false → Q false false (k.serializable data)
  lockup : ∀ {a b data} (txid : String),
    Q a b (k.serializable data) → Q a b (k.serializable (k.setLockupTxid txid data))
  load : ∀ {a b stored data} (txid : Option String), k.toData stored = .ok data →
    Q a b stored → Q a b (k.serializable (k.withLockupTxid txid data))
  response : ∀ {a b e claimAddress refundAddress data},
    k.fromResponse e claimAddress refundAddress = .ok data →
    Q (a || reportsPaid e.status) (b || true) (k.serializable data)
  thrown : ∀ {a b o update state data err data'}, k.flow o update state data = .error err data' →
    Q a b (k.serializable data) → Q a b (k.serializable data')
  handled : ∀ {a b o update state data flow data'}, k.flow o update state data = .ok flow data' →
    Q a b (k.serializable data) →
    Q (a || state.reportsPaid) b (k.serializable (k.withState state data'))

variable {k : RunKind Data Stored} {Q : Bool → Bool → Stored → Prop} {r : SwapRun Data Stored}

theorem RunKind.Keeps.read (h : k.Keeps Q) (hr : k.Kept Q r) {source : Source}
    (hread : k.read r source = some stored) :
    Q (r.reported || source.reportsPaid) (r.responded || source.isResponse) stored := by
  cases source with
  | store => exact h.mono _ _ (hr.stored stored hread)
  | copy i => exact h.mono _ _ (hr.copies stored (List.mem_of_getElem? hread))
  | response e claimAddress refundAddress =>
    unfold RunKind.read at hread
    cases hdata : k.fromResponse e claimAddress refundAddress with
    | error err => simp [hdata, Except.toOption] at hread
    | ok data =>
      simp only [hdata, Except.toOption, Option.map_some, Option.some.injEq] at hread
      subst hread
      exact h.response hdata

theorem RunKind.Keeps.advance (h : k.Keeps Q) (hr : k.Kept Q r) (o : Outcomes) :
    k.Kept Q (k.next r (.advance o)) := by
  have hmono {stored : Stored} (hq : Q r.reported r.responded stored) :
      Q (r.reported || o.reportsPaid) r.responded stored := by
    simpa using h.mono o.reportsPaid false hq
  have hsame {s : Following Data Stored}
      (hdata : Q (r.reported || o.reportsPaid) r.responded (k.serializable s.data))
      (hstored : s.stored = r.following.stored ∨ s.stored = some (k.serializable s.data)) :
      k.Kept Q { r with following := s, reported := r.reported || o.reportsPaid } := by
    refine ⟨hdata, fun stored hs => ?_, fun stored hs => hmono (hr.copies stored hs)⟩
    rcases hstored with heq | heq
    · exact hmono (hr.stored stored (heq.symm.trans hs))
    · cases heq.symm.trans hs
      exact hdata
  simp only [RunKind.next]
  unfold Kind.advance
  cases hnext : o.nextStatus with
  | error e => exact hsame (hmono hr.data) (.inl rfl)
  | ok update =>
    dsimp only [BoltzSession.swapState]
    cases hstate : SwapState.fromStr update.status with
    | error e => exact hsame (hmono hr.data) (.inl rfl)
    | ok state =>
      have hreports : o.reportsPaid = state.reportsPaid := by
        simp only [Outcomes.reportsPaid, hnext, Boltz.reportsPaid, hstate]
      dsimp only [Except.mapError]
      cases hflow : k.flow o update state r.following.data with
      | error e data => exact hsame (hmono (h.thrown hflow hr.data)) (.inl rfl)
      | ok flow data =>
        have hdata := hreports ▸ h.handled hflow hr.data
        dsimp only [Kind.conclude]
        cases flow with
        | error e => exact hsame hdata (.inl rfl)
        | ok flow =>
          cases o.persist with
          | error e => exact hsame hdata (.inl rfl)
          | ok _ =>
            cases o.moveToCompleted <;> cases flow <;> exact hsame hdata (.inr rfl)

theorem RunKind.Keeps.restore (h : k.Keeps Q) (hr : k.Kept Q r) (o : Outcomes) (polling : Bool)
    (source : Source) : k.Kept Q (k.next r (.restore o polling source)) := by
  have hmono {stored : Stored} (hq : Q r.reported r.responded stored) :=
    h.mono source.reportsPaid source.isResponse hq
  have hsame {s : Following Data Stored} (hstored : s.stored = r.following.stored)
      (hdata : Q (r.reported || source.reportsPaid) (r.responded || source.isResponse)
        (k.serializable s.data)) : k.Kept Q { r with
          following := s
          reported := r.reported || source.reportsPaid
          responded := r.responded || source.isResponse } :=
    ⟨hdata, fun stored hs => hmono (hr.stored stored (hstored.symm.trans hs)),
      fun stored hs => hmono (hr.copies stored hs)⟩
  simp only [RunKind.next]
  cases hread : k.read r source with
  | none => exact hsame rfl (hmono hr.data)
  | some stored =>
    dsimp only
    rcases restore_cases k.toKind o polling stored r.following with hafter | ⟨data, hdata, hafter⟩
    · rw [hafter]
      exact hsame rfl (hmono hr.data)
    · rw [hafter]
      exact hsame rfl (h.load o.fetchLockupTxid hdata (h.read hr hread))

/-- **What holds of everything a swap may be restored from.** -/
theorem RunKind.saved_inv (h : k.Keeps Q) (hreached : k.Reached r) : k.Kept Q r := by
  induction hreached with
  | new data polling hstate =>
    refine ⟨h.new hstate, fun stored hs => ?_, fun stored hs => absurd hs List.not_mem_nil⟩
    cases hs
    exact h.new hstate
  | next _ e ih =>
    cases e with
    | fund => exact ⟨ih.data, ih.stored, ih.copies⟩
    | advance o => exact h.advance ih o
    | restore o polling source => exact h.restore ih o polling source
    | serialize =>
      refine ⟨ih.data, ih.stored, fun stored hs => ?_⟩
      rcases List.mem_append.1 hs with hold | hnew
      · exact ih.copies stored hold
      · rw [List.mem_singleton.1 hnew]
        exact ih.data
    | setLockupTxid o txid =>
      have hdata := h.lockup txid ih.data
      simp only [RunKind.next, Kind.storeLockupTxid]
      cases o.persist with
      | error e => exact ⟨hdata, ih.stored, ih.copies⟩
      | ok _ =>
        refine ⟨hdata, fun stored hs => ?_, ih.copies⟩
        cases hs
        exact hdata

end Calls

/-! ## Payments -/

namespace PreparePayData

variable {notEligible : String → Bool} {o : Outcomes} {update : SwapStatus} {state : SwapState}
  {data data' : PreparePayData} {flow : ControlFlow}

theorem fetchLockup_preserves (o : Outcomes) : Preserves (·.lastState) (fetchLockup o) := by
  unfold fetchLockup
  refine .bind .get fun data => ?_
  split
  · exact .bind (.liftExcept _) fun _ => .modify fun _ => rfl
  · exact .pure ()

theorem refund_preserves (o : Outcomes) : Preserves (·.lastState) (refund o) :=
  .bind .get fun _ => .bind (.liftExcept _) fun _ => .bind (.liftExcept _) fun _ =>
    .modify fun _ => rfl

theorem flow_preserves (notEligible : String → Bool) (o : Outcomes) (update : SwapStatus)
    (state : SwapState) :
    Preserves (·.lastState) (PreparePayData.flow notEligible o update state) := by
  unfold PreparePayData.flow
  split
  · exact .pure _
  · exact .pure _
  · exact .pure _
  · exact .pure _
  · split
    · exact .bind (.liftExcept _) fun _ => .bind (.modify fun _ => rfl) fun _ => .pure _
    · exact .pure _
  · refine .bind (.liftExcept _) fun utxoExists => ?_
    split
    · exact .bind (refund_preserves o) fun _ => .pure _
    · exact .pure _
  · exact .bind (refund_preserves o) fun _ => .pure _
  · exact .bind .get fun _ => .pure _
  · exact .bind (fetchLockup_preserves o) fun _ => .pure _
  · exact .pure _
  · exact .bind .get fun _ => .pure _

/-- An update at which the code gives the lockup up. -/
def GivesUp (o : Outcomes) (state : SwapState) : Prop :=
  state = .swapExpired ∨ state = .invoiceFailedToPay ∧ o.lockupUtxoExists = .ok false

theorem flow_of_givesUp
    (h : PreparePayData.flow notEligible o update state data = .ok (.ok flow) data')
    (hgives : GivesUp o state) : data' = data := by
  rcases hgives with rfl | ⟨rfl, hutxo⟩
  · cases h
    rfl
  · obtain ⟨utxoExists, hok, h⟩ := liftExcept_bind_ok_iff.1 h
    cases hutxo.symm.trans hok
    cases h
    rfl

theorem refund_ok {u : Unit} (h : refund o data = .ok u data') :
    data'.refundTxid.isSome = true := by
  iterate 3 obtain ⟨_, _, -, h⟩ := bind_ok_iff.1 h
  rw [← modify_ok_iff.1 h]
  rfl

/-- **A payment that has ended otherwise was made, or is refunded.** -/
theorem flow_settles
    (h : PreparePayData.flow notEligible o update state data = .ok (.ok flow) data')
    (hgives : ¬ GivesUp o state) (hends : flow.isBreak = true) :
    state.reportsPaid = true ∨ data'.refundTxid.isSome = true := by
  cases state with
  | transactionClaimPending | transactionClaimed => exact .inl rfl
  | swapExpired => exact absurd (.inl rfl) hgives
  | invoiceFailedToPay =>
    obtain ⟨utxoExists, hok, h⟩ := liftExcept_bind_ok_iff.1 h
    cases utxoExists with
    | false => exact absurd (.inr ⟨rfl, hok⟩) hgives
    | true =>
      obtain ⟨_, data₂, hrefund, h⟩ := bind_ok_iff.1 h
      cases h
      exact .inr (refund_ok hrefund)
  | transactionLockupFailed =>
    obtain ⟨_, data₂, hrefund, h⟩ := bind_ok_iff.1 h
    cases h
    exact .inr (refund_ok hrefund)
  | invoiceSet | transactionConfirmed | invoicePending | invoicePaid =>
    cases h
    simp [ControlFlow.isBreak] at hends
  | transactionMempool =>
    unfold PreparePayData.flow at h
    cases htx : update.transaction with
    | none =>
      rw [htx] at h
      cases h
      simp [ControlFlow.isBreak] at hends
    | some txid =>
      rw [htx] at h
      obtain ⟨_, data₂, hmodify, h⟩ := bind_ok_iff.1 h
      cases h
      simp [ControlFlow.isBreak] at hends
  | _ => cases h

end PreparePayData

/-! ## Swaps between chains -/

/-- The terminal states at which a swap between chains is claimed or refunded. -/
def SwapState.claimsOrRefunds : SwapState → Bool
  | .transactionClaimed | .transactionFailed => true
  | _ => false

namespace ChainSwapData

variable {o : Outcomes} {update : SwapStatus} {state : SwapState} {data data' : ChainSwapData}
  {flow : ControlFlow}

/-- The user has claimed what Boltz locked up, or has taken back what they did. -/
def Recovered (data : ChainSwapData) : Prop :=
  data.claimTxid.isSome = true ∨ data.refundTxid.isSome = true

theorem flow_of_expired (h : ChainSwapData.flow o update .swapExpired data = .ok (.ok flow) data') :
    data' = data := by
  cases h
  rfl

theorem buildAndBroadcastClaim_ok {cooperative : Bool} {u : Unit}
    (h : buildAndBroadcastClaim o cooperative data = .ok u data') : data'.Recovered := by
  iterate 3 obtain ⟨_, _, -, h⟩ := bind_ok_iff.1 h
  rw [← modify_ok_iff.1 h]
  exact .inl rfl

theorem buildAndBroadcastRefund_ok {u : Unit}
    (h : buildAndBroadcastRefund o data = .ok u data') : data'.Recovered := by
  iterate 3 obtain ⟨_, _, -, h⟩ := bind_ok_iff.1 h
  rw [← modify_ok_iff.1 h]
  exact .inr rfl

/-- **A swap that has ended otherwise than by expiring is claimed or refunded.** -/
theorem flow_recovers {result : Except Error ControlFlow}
    (h : ChainSwapData.flow o update state data = .ok result data')
    (hexpired : state ≠ .swapExpired)
    (hends : (∃ flow, result = .ok flow ∧ flow.isBreak = true) ∨ state.claimsOrRefunds = true) :
    data'.Recovered := by
  cases state with
  | swapExpired => exact absurd rfl hexpired
  | transactionClaimed =>
    obtain ⟨_, data₁, hfetch, h⟩ := bind_ok_iff.1 h
    replace h := get_bind_ok_iff.1 h
    by_cases hclaimed : data₁.claimTxid.isSome = true
    · rw [if_pos hclaimed] at h
      cases h
      exact .inl hclaimed
    · rw [if_neg hclaimed] at h
      obtain ⟨_, data₂, hclaim, h⟩ := bind_ok_iff.1 h
      cases h
      exact buildAndBroadcastClaim_ok hclaim
  | transactionLockupFailed | transactionFailed | transactionRefunded =>
    obtain ⟨_, data₁, hrefund, h⟩ := bind_ok_iff.1 h
    cases h
    exact buildAndBroadcastRefund_ok hrefund
  | swapCreated | serverTransactionMempool | transactionMempool | transactionConfirmed =>
    cases h
    simp [ControlFlow.isBreak, SwapState.claimsOrRefunds] at hends
  | serverTransactionConfirmed =>
    obtain ⟨_, data₁, hwait, h⟩ := bind_ok_iff.1 h
    obtain ⟨_, data₂, hclaim, h⟩ := bind_ok_iff.1 h
    cases h
    simp [ControlFlow.isBreak, SwapState.claimsOrRefunds] at hends
  | _ =>
    cases h
    simp [SwapState.claimsOrRefunds] at hends

/-- The parts that say what became of the lockup. -/
def outcome (data : ChainSwapData) : SwapState × Option String × Option String :=
  (data.lastState, data.claimTxid, data.refundTxid)

theorem broadcast_error {α : Type} {build : ChainSwapData → Except Error α}
    {send : ChainSwapData → α → Except Error String} {keep : String → ChainSwapData → ChainSwapData}
    {e : Error} (h : (do
      let data ← get
      let tx ← liftExcept (build data)
      let txid ← liftExcept (send data tx)
      modify (keep txid) : EStateM Error ChainSwapData Unit) data = .error e data') :
    data' = data := by
  rw [get_bind] at h
  obtain ⟨-, rfl⟩ | ⟨_, -, h⟩ := liftExcept_bind_error_iff.1 h
  · rfl
  obtain ⟨-, rfl⟩ | ⟨_, -, h⟩ := liftExcept_bind_error_iff.1 h
  · rfl
  · cases h

theorem fetchLockup_preserves (o : Outcomes) : Preserves outcome (fetchLockup o) := by
  unfold fetchLockup
  refine .bind .get fun data => ?_
  split
  · exact .bind (.liftExcept _) fun _ => .modify fun _ => rfl
  · exact .pure ()

theorem checkServerLockup_preserves (o : Outcomes) (transaction : Option String) :
    Preserves outcome (checkServerLockup o transaction) := by
  unfold checkServerLockup
  split
  · exact .bind (.liftExcept _) fun _ => .liftExcept _
  · exact .pure ()

theorem flow_error {e : Error} (h : ChainSwapData.flow o update state data = .error e data') :
    data'.outcome = data.outcome := by
  cases state with
  | serverTransactionConfirmed =>
    obtain h | ⟨_, data₁, hcheck, h⟩ := bind_error_iff.1 h
    · exact (checkServerLockup_preserves o _).error h
    obtain h | ⟨_, _, -, h⟩ := bind_error_iff.1 h
    · rw [broadcast_error h]
      exact (checkServerLockup_preserves o _).ok hcheck
    · cases h
  | transactionClaimed =>
    obtain h | ⟨_, data₁, hfetch, h⟩ := bind_error_iff.1 h
    · exact (fetchLockup_preserves o).error h
    rw [get_bind] at h
    by_cases hclaimed : data₁.claimTxid.isSome = true
    · rw [if_pos hclaimed] at h
      cases h
    · rw [if_neg hclaimed] at h
      obtain h | ⟨_, _, -, h⟩ := bind_error_iff.1 h
      · rw [broadcast_error h]
        exact (fetchLockup_preserves o).ok hfetch
      · cases h
  | transactionLockupFailed | transactionFailed | transactionRefunded =>
    obtain h | ⟨_, _, -, h⟩ := bind_error_iff.1 h
    · rw [broadcast_error h]
    · cases h
  | _ => cases h

end ChainSwapData

/-! ## Whole runs -/

namespace Payment

variable {c : Crypto} {notEligible : String → Bool} {session : BoltzSession}

/-- Boltz has earned what is locked up, or a refund is out. -/
def Fine (r : SwapRun PreparePayData PreparePayDataSerializable) : Prop :=
  r.funded = true → r.reported = true ∨ r.following.data.refundTxid.isSome = true

/-- When an event that files the swap is in order. -/
def InOrder (c : Crypto) (notEligible : String → Bool) (session : BoltzSession)
    (r : SwapRun PreparePayData PreparePayDataSerializable) : SwapRunEvent → Prop
  | .advance o => ∀ update state, o.nextStatus = .ok update →
      SwapState.fromStr update.status = .ok state → PreparePayData.GivesUp o state → Fine r
  | .restore _ _ source => ∀ stored, (preparePayRuns c notEligible session).read r source =
      some stored → stored.lastState = .transactionClaimed ∨ (r.funded = true →
        r.reported = true ∨ source.reportsPaid = true ∨ stored.refundTxid.isSome = true)
  | _ => True

/-- A payment whose last state is that Boltz claimed the lockup was reported as made. -/
def Saved (reported _responded : Bool) (stored : PreparePayDataSerializable) : Prop :=
  stored.lastState = .transactionClaimed → reported = true

theorem toPreparePayData_ok {stored : PreparePayDataSerializable} {data : PreparePayData}
    (h : toPreparePayData c stored session.mnemonic session.chain = .ok data) :
    data.lastState = stored.lastState ∧ data.refundTxid = stored.refundTxid := by
  repeat obtain ⟨_, -, h⟩ := except_bind_ok_iff.1 h
  cases h
  exact ⟨rfl, rfl⟩

theorem fromResponse_ok {e : SwapRestoreResponse} {refundAddress : String} {data : PreparePayData}
    (h : e.toPreparePayData c session.mnemonic refundAddress session.chain = .ok data) :
    e.lastState = .ok data.lastState := by
  iterate 4 obtain ⟨_, -, h⟩ := except_bind_ok_iff.1 h
  obtain ⟨lastState, hlast, h⟩ := except_bind_ok_iff.1 h
  repeat obtain ⟨_, -, h⟩ := except_bind_ok_iff.1 h
  cases h
  exact hlast

theorem keeps_saved : (preparePayRuns c notEligible session).Keeps Saved where
  mono := fun {a b stored} a' b' h hclaimed => by rw [h hclaimed, Bool.true_or]
  new := fun {data} hstate hclaimed => by
    have hlast : data.lastState = .transactionClaimed := hclaimed
    simp [preparePayRuns, preparePay, hlast, SwapState.isTerminal] at hstate
  lockup := fun _ h => h
  load := fun _ hdata h hclaimed => h ((toPreparePayData_ok hdata).1.symm.trans hclaimed)
  response := fun {a b e claimAddress refundAddress data} hresponse hclaimed => by
    have hlast : data.lastState = .transactionClaimed := hclaimed
    have hstate := fromResponse_ok hresponse
    rw [hlast, SwapRestoreResponse.lastState, mapError_ok_iff] at hstate
    simp [reportsPaid, hstate, SwapState.reportsPaid]
  thrown := fun hflow h hclaimed =>
    h (((PreparePayData.flow_preserves ..).error hflow).symm.trans hclaimed)
  handled := fun {a b o update state data flow data'} _ _ hclaimed => by
    have hstate : state = .transactionClaimed := hclaimed
    rw [hstate, SwapState.reportsPaid, Bool.or_true]

/-- **A payment is filed in order** if and only if the event that files it does not give its lockup
up. -/
theorem filed_iff {r : SwapRun PreparePayData PreparePayDataSerializable}
    (h : (preparePayRuns c notEligible session).Reached r) {e : SwapRunEvent}
    (hfiled : ((preparePayRuns c notEligible session).next r e).following.filed = true) :
    Fine ((preparePayRuns c notEligible session).next r e) ↔
      InOrder c notEligible session r e := by
  obtain ⟨hfiles, hfunded⟩ := RunKind.files_of_filed hfiled
  unfold Fine
  rw [hfunded]
  generalize ((preparePayRuns c notEligible session).next r e).following.data = data at hfiles ⊢
  generalize ((preparePayRuns c notEligible session).next r e).reported = reported at hfiles ⊢
  cases hfiles with
  | @advance o update state flow data hhandled hbreak =>
    obtain ⟨hnext, hstate, hflow⟩ := hhandled
    have hall : InOrder c notEligible session r (.advance o) ↔
        (PreparePayData.GivesUp o state → Fine r) := by
      constructor
      · intro hin
        exact hin update state hnext hstate
      · intro hin update' state' hnext' hstate'
        cases hnext.symm.trans hnext'
        cases hstate.symm.trans hstate'
        exact hin
    rw [hall]
    by_cases hgives : PreparePayData.GivesUp o state
    · have hpaid : state.reportsPaid = false := by
        rcases hgives with rfl | ⟨rfl, -⟩ <;> rfl
      rw [PreparePayData.flow_of_givesUp hflow hgives, hpaid, Bool.or_false]
      exact ⟨fun hfine _ => hfine, fun hin => hin hgives⟩
    · refine ⟨fun _ hnot => absurd hnot hgives, fun _ _ => ?_⟩
      rcases PreparePayData.flow_settles hflow hgives hbreak with hpaid | hrefund
      · left
        rw [hpaid, Bool.or_true]
      · exact .inr hrefund
  | @restore o polling source stored data hread hdata hterminal =>
    obtain ⟨-, hrefund⟩ := toPreparePayData_ok hdata
    have hsaved : Saved _ _ stored := keeps_saved.read (RunKind.saved_inv keeps_saved h) hread
    show (r.funded = true → (r.reported || source.reportsPaid) = true ∨
      data.refundTxid.isSome = true) ↔ _
    rw [hrefund, Bool.or_eq_true, or_assoc]
    constructor
    · intro hfine stored' hread'
      cases hread.symm.trans hread'
      exact .inr hfine
    · intro hin hfunded
      rcases hin stored hread with hclaimed | hsettled
      · rw [← or_assoc, ← Bool.or_eq_true]
        exact .inl (hsaved hclaimed)
      · exact hsettled hfunded

end Payment

namespace ChainSwap

variable {c : Crypto} {session : BoltzSession}

/-- The user has claimed, or a refund is out. -/
def Fine (r : SwapRun ChainSwapData ChainSwapDataSerializable) : Prop :=
  r.funded = true → r.following.data.Recovered

/-- When an event that files the swap is in order. -/
def InOrder (c : Crypto) (session : BoltzSession)
    (r : SwapRun ChainSwapData ChainSwapDataSerializable) : SwapRunEvent → Prop
  | .advance o => ∀ update, o.nextStatus = .ok update →
      SwapState.fromStr update.status = .ok .swapExpired → Fine r
  | .restore _ _ source => ∀ stored, (lockupRuns c session).read r source = some stored →
      (r.responded || source.isResponse) = false ∧ stored.lastState.claimsOrRefunds = true ∨
      (r.funded = true → stored.claimTxid.isSome = true ∨ stored.refundTxid.isSome = true)
  | _ => True

/-- A swap that was never restored from a response of Boltz is claimed or refunded when its last
state says so. -/
def Saved (_reported responded : Bool) (stored : ChainSwapDataSerializable) : Prop :=
  responded = false → stored.lastState.claimsOrRefunds = true →
    stored.claimTxid.isSome = true ∨ stored.refundTxid.isSome = true

theorem toChainData_ok {stored : ChainSwapDataSerializable} {data : ChainSwapData}
    (h : toChainData c stored session.mnemonic = .ok data) :
    data.lastState = stored.lastState ∧ data.claimTxid = stored.claimTxid ∧
      data.refundTxid = stored.refundTxid := by
  repeat obtain ⟨_, -, h⟩ := except_bind_ok_iff.1 h
  cases h
  exact ⟨rfl, rfl, rfl⟩

theorem keeps_saved : (lockupRuns c session).Keeps Saved where
  mono := fun {a b stored} a' b' h hno hstate => h (Bool.or_eq_false_iff.1 hno).1 hstate
  new := fun {data} hstate _ hends => by
    have hlast : data.lastState.claimsOrRefunds = true := hends
    have hnot : data.lastState.isTerminal = false := hstate
    cases hdata : data.lastState <;> simp_all [SwapState.claimsOrRefunds, SwapState.isTerminal]
  lockup := fun _ h => h
  load := fun {a b stored data} _ hdata h hno hends => by
    obtain ⟨hlast, hclaim, hrefund⟩ := toChainData_ok hdata
    have hstate : data.lastState.claimsOrRefunds = true := hends
    show data.claimTxid.isSome = true ∨ data.refundTxid.isSome = true
    rw [hclaim, hrefund]
    exact h hno (hlast ▸ hstate)
  response := fun _ hno => by simp at hno
  thrown := fun {a b o update state data err data'} hflow h hno hends => by
    have hsame : data'.outcome = data.outcome := ChainSwapData.flow_error hflow
    simp only [ChainSwapData.outcome, Prod.mk.injEq] at hsame
    have hstate : data.lastState.claimsOrRefunds = true := hsame.1 ▸ hends
    show data'.claimTxid.isSome = true ∨ data'.refundTxid.isSome = true
    rw [hsame.2.1, hsame.2.2]
    exact h hno hstate
  handled := fun {a b o update state data flow data'} hflow _ _ hends => by
    have hstate : state.claimsOrRefunds = true := hends
    have hexpired : state ≠ .swapExpired := by
      rintro rfl
      cases hstate
    have hkind : ChainSwapData.flow o update state data = .ok flow data' := hflow
    have hrecovered : data'.Recovered := ChainSwapData.flow_recovers hkind hexpired (.inr hstate)
    exact hrecovered

/-- **A swap between chains is filed in order** if and only if the event that files it does not give
its lockup up. -/
theorem filed_iff {r : SwapRun ChainSwapData ChainSwapDataSerializable}
    (h : (lockupRuns c session).Reached r) {e : SwapRunEvent}
    (hfiled : ((lockupRuns c session).next r e).following.filed = true) :
    Fine ((lockupRuns c session).next r e) ↔ InOrder c session r e := by
  obtain ⟨hfiles, hfunded⟩ := RunKind.files_of_filed hfiled
  unfold Fine
  rw [hfunded]
  generalize ((lockupRuns c session).next r e).following.data = data at hfiles ⊢
  generalize ((lockupRuns c session).next r e).reported = reported at hfiles
  cases hfiles with
  | @advance o update state flow data hhandled hbreak =>
    obtain ⟨hnext, hstate, hkind⟩ := hhandled
    have hflow : ChainSwapData.flow o update state r.following.data = .ok (.ok flow) data := hkind
    have hall : InOrder c session r (.advance o) ↔ (state = .swapExpired → Fine r) := by
      constructor
      · rintro hin rfl
        exact hin update hnext hstate
      · intro hin update' hnext' hstate'
        cases hnext.symm.trans hnext'
        cases hstate.symm.trans hstate'
        exact hin rfl
    rw [hall]
    by_cases hexpired : state = .swapExpired
    · subst hexpired
      rw [ChainSwapData.flow_of_expired hflow]
      exact ⟨fun hfine _ => hfine, fun hin => hin rfl⟩
    · have hrecovered : data.Recovered :=
        ChainSwapData.flow_recovers hflow hexpired (.inl ⟨flow, rfl, hbreak⟩)
      exact ⟨fun _ hnot => absurd hnot hexpired, fun _ _ => hrecovered⟩
  | @restore o polling source stored data hread hdata hterminal =>
    obtain ⟨-, hclaim, hrefund⟩ := toChainData_ok hdata
    have hsaved : Saved _ _ stored := keeps_saved.read (RunKind.saved_inv keeps_saved h) hread
    have hrecovered : ((lockupRuns c session).withLockupTxid o.fetchLockupTxid data).Recovered ↔
        (stored.claimTxid.isSome = true ∨ stored.refundTxid.isSome = true) := by
      rw [← hclaim, ← hrefund]
      rfl
    rw [hrecovered]
    constructor
    · intro hfine stored' hread'
      cases hread.symm.trans hread'
      exact .inr hfine
    · intro hin hfunded
      rcases hin stored hread with ⟨hno, hstate⟩ | hsettled
      · exact hsaved hno hstate
      · exact hsettled hfunded

end ChainSwap

/-- **A swap is filed as completed only when nothing is left to recover**, unless the event that
files it gives the lockup up: at every point of every run, for payments and for swaps between
chains. -/
theorem swaps_filed_iff (c : Crypto) (notEligible : String → Bool) (session : BoltzSession) :
    (∀ r e, (preparePayRuns c notEligible session).Reached r →
      ((preparePayRuns c notEligible session).next r e).following.filed = true →
      (Payment.Fine ((preparePayRuns c notEligible session).next r e) ↔
        Payment.InOrder c notEligible session r e)) ∧
    ∀ r e, (lockupRuns c session).Reached r →
      ((lockupRuns c session).next r e).following.filed = true →
      (ChainSwap.Fine ((lockupRuns c session).next r e) ↔ ChainSwap.InOrder c session r e) := by
  exact ⟨fun r e h => Payment.filed_iff h, fun r e h => ChainSwap.filed_iff h⟩

namespace GivenUp

open MainnetSwap

def outcomes (status : String) : Outcomes where
  nextStatus := .ok ⟨status, none⟩
  waitForChainTx := fun _ => .ok ()
  fetchLockupTxid := some "lockup"
  lockupUtxoExists := .ok true
  cooperativeClaim := .ok ()
  parseLockupTransaction := fun _ => .ok ()
  constructRefund := fun _ _ => .ok [1]
  constructClaim := fun _ _ => .ok [2]
  broadcastTx := fun _ _ => .ok "txid"
  subscribed := .ok ()
  persist := .ok ()
  moveToCompleted := .ok ()

def payment : PreparePayData where
  lastState := .invoiceSet
  swapType := .submarine
  lockupTxid := none
  refundTxid := none
  fee := some 10
  boltzFee := none
  bolt11Invoice := some ⟨[1]⟩
  bolt12Invoice := none
  createSwapResponse := ⟨false, "address", "", ⟨false, 2⟩, 1000, "swap", none, "tree", 900000, none⟩
  ourKeys := 1
  refundAddress := "refund"
  keyIndex := 0
  mnemonicIdentifier := 0
  fromChain := .liquid .liquid

def payments : RunKind PreparePayData PreparePayDataSerializable :=
  preparePayRuns crypto (fun _ => false) session

def fundedPayment : SwapRun PreparePayData PreparePayDataSerializable :=
  payments.next (payments.start payment false) .fund

theorem fundedPayment_reached : payments.Reached fundedPayment :=
  .next (.new payment false rfl) .fund

def response : SwapRestoreResponse :=
  ⟨"swap", .chain, "transaction.claimed", "BTC", "L-BTC",
    some ⟨"tree", 0, "address", "key", 900000, some 1000, none⟩,
    some ⟨"tree", 1, some "lockup", "address", "key", 900000, none⟩⟩

def swapData : ChainSwapData where
  lastState := .swapCreated
  swapType := .chain
  fee := some 0
  boltzFee := none
  claimFee := none
  createChainResponse := ⟨"swap", details, details⟩
  claimKeys := 1
  refundKeys := 2
  preimage := ⟨1⟩
  lockupAddress := "address"
  expectedLockupAmount := 1000
  claimAddress := "claim"
  refundAddress := "refund"
  claimKeyIndex := 0
  refundKeyIndex := 1
  mnemonicIdentifier := 0
  fromChain := .bitcoin .bitcoin
  toChain := .liquid .liquid
  randomPreimage := false
  claimTxid := none
  lockupTxid := none
  refundTxid := none

def swaps : RunKind ChainSwapData ChainSwapDataSerializable := lockupRuns crypto session

def fundedSwap : SwapRun ChainSwapData ChainSwapDataSerializable :=
  swaps.next (swaps.start swapData false) .fund

theorem fundedSwap_reached : swaps.Reached fundedSwap := .next (.new swapData false rfl) .fund

/-- An expired payment is filed with its lockup funded and no refund; a swap between chains is filed
when it is restored, with nothing claimed. -/
theorem filed_with_funds : (∃ r e, payments.Reached r ∧ (payments.next r e).following.filed = true ∧
      ¬ Payment.Fine (payments.next r e)) ∧
    ∃ r e, swaps.Reached r ∧ (swaps.next r e).following.filed = true ∧
      ¬ ChainSwap.Fine (swaps.next r e) := by
  refine ⟨⟨fundedPayment, .advance (outcomes "swap.expired"), fundedPayment_reached, rfl, ?_⟩,
    ⟨fundedSwap, .restore (outcomes "") false (.response response "claim" "refund"),
      fundedSwap_reached, rfl, ?_⟩⟩
  all_goals
    intro hfine
    rcases hfine rfl with h | h <;> cases h

theorem swaps_filed_iff_expired :
    Payment.Fine (payments.next fundedPayment (.advance (outcomes "swap.expired"))) ↔
      Payment.InOrder crypto (fun _ => false) session fundedPayment
        (.advance (outcomes "swap.expired")) :=
  (swaps_filed_iff crypto (fun _ => false) session).1 _ _ fundedPayment_reached rfl

end GivenUp

end Swk.Boltz
