import Mathlib.Data.List.Count
import Mathlib.Logic.Function.Basic
import Mathlib.Tactic.Common

/-!
# The swap lists of a Boltz session

The ids of pending and completed swaps are two lists under two keys of a store; a third key holds
the data of each swap. `persist_and_add_to_pending`, `move_to_completed` and `remove_swap` read a
list, change it and write it back, each get and put on its own. Calls on different swaps run at the
same time, a store operation may fail and the process may stop anywhere.

Nothing guards the lists. A call that writes what it read before another call wrote undoes the other
call's change; and a swap that is being moved stands in neither list for a moment. Both lose swaps.

The proof looks at one swap at a time. What the store and the calls hold about one id is its `View`,
and as long as every put finds the list its call read, a step of one swap is a step of that swap's
view and leaves all other views alone.
-/

namespace Swk

open Function List

/-! ## The store and the three functions -/

/-- `retain(|id| id != swap_id)`. -/
def retainOthers (id : String) (swaps : List String) : List String := swaps.filter (· ≠ id)

/-- What the session keeps in its store, empty lists where a key is missing. -/
structure SwapStore where
  pending : List String
  completed : List String
  data : String → Option String

namespace SwapStore

variable (store : SwapStore) (id : String)

def persist (data : String) : SwapStore :=
  { store with data := Function.update store.data id (some data) }

def persistAndAddToPending (data : String) : SwapStore :=
  let store := store.persist id data
  if store.pending.contains id then store else { store with pending := store.pending ++ [id] }

def moveToCompleted : SwapStore :=
  let store := { store with pending := retainOthers id store.pending }
  if store.completed.contains id then store
  else { store with completed := store.completed ++ [id] }

def removeSwap : SwapStore :=
  let store := { store with data := Function.update store.data id none }
  let store :=
    if store.pending.contains id then { store with pending := retainOthers id store.pending }
    else store
  if store.completed.contains id then { store with completed := retainOthers id store.completed }
  else store

end SwapStore

/-! ## Gets and puts -/

inductive SwapCall
  | persistAndAddToPending (data : String)
  | moveToCompleted
  | removeSwap

/-- The store operation that a call comes to next. -/
inductive Stage
  | persistData (data : String)
  | persistGet
  | persistPut
  | moveGetPending
  | movePutPending
  | moveGetCompleted
  | movePutCompleted
  | removeData
  | removeGetPending
  | removePutPending
  | removeGetCompleted
  | removePutCompleted
deriving DecidableEq

def SwapCall.run (call : SwapCall) (id : String) (store : SwapStore) : SwapStore :=
  match call with
  | .persistAndAddToPending data => store.persistAndAddToPending id data
  | .moveToCompleted => store.moveToCompleted id
  | .removeSwap => store.removeSwap id

def SwapCall.stage : SwapCall → Stage
  | .persistAndAddToPending data => .persistData data
  | .moveToCompleted => .moveGetPending
  | .removeSwap => .removeData

/-- One store operation of a call: the store after it, and where the call goes on, with the list it
has read last. No stage is left when the call returns. -/
def Stage.next (id : String) (stage : Stage) (read : List String) (store : SwapStore) :
    SwapStore × Option (Stage × List String) :=
  match stage with
  | .persistData data => (store.persist id data, some (.persistGet, []))
  | .persistGet =>
    (store, if store.pending.contains id then none else some (.persistPut, store.pending))
  | .persistPut => ({ store with pending := read ++ [id] }, none)
  | .moveGetPending => (store, some (.movePutPending, store.pending))
  | .movePutPending =>
    ({ store with pending := retainOthers id read }, some (.moveGetCompleted, []))
  | .moveGetCompleted =>
    (store, if store.completed.contains id then none
      else some (.movePutCompleted, store.completed))
  | .movePutCompleted => ({ store with completed := read ++ [id] }, none)
  | .removeData =>
    ({ store with data := Function.update store.data id none }, some (.removeGetPending, []))
  | .removeGetPending =>
    (store, if store.pending.contains id then some (.removePutPending, store.pending)
      else some (.removeGetCompleted, []))
  | .removePutPending =>
    ({ store with pending := retainOthers id read }, some (.removeGetCompleted, []))
  | .removeGetCompleted =>
    (store, if store.completed.contains id then some (.removePutCompleted, store.completed)
      else none)
  | .removePutCompleted => ({ store with completed := retainOthers id read }, none)

/-- A stage of `persist_and_add_to_pending`. -/
def Stage.isPersist : Stage → Bool
  | .persistData _ | .persistGet | .persistPut => true
  | _ => false

/-- Between the two puts of `move_to_completed`. -/
def Stage.betweenPuts : Stage → Bool
  | .moveGetCompleted | .movePutCompleted => true
  | _ => false

/-- The list that is about to be changed is still the one that was read. -/
def Stage.Current (stage : Stage) (read : List String) (store : SwapStore) : Prop :=
  match stage with
  | .persistPut | .movePutPending | .removePutPending => read = store.pending
  | .movePutCompleted | .removePutCompleted => read = store.completed
  | _ => True

def Stage.alone (id : String) : Nat → Stage → List String → SwapStore → Option SwapStore
  | 0, _, _, _ => none
  | n + 1, stage, read, store =>
    match stage.next id read store with
    | (store, none) => some store
    | (store, some (stage, read)) => alone id n stage read store

/-- **A call that runs alone does what its function does**, in at most five operations. -/
theorem SwapCall.stage_alone (call : SwapCall) (id : String) (store : SwapStore) :
    call.stage.alone id 5 [] store = some (call.run id store) := by
  cases call with
  | persistAndAddToPending data =>
    by_cases hmem : id ∈ store.pending <;>
      simp [SwapCall.stage, Stage.alone, Stage.next, SwapCall.run,
        SwapStore.persistAndAddToPending, SwapStore.persist, hmem]
  | moveToCompleted =>
    by_cases hmem : id ∈ store.completed <;>
      simp [SwapCall.stage, Stage.alone, Stage.next, SwapCall.run, SwapStore.moveToCompleted, hmem]
  | removeSwap =>
    by_cases hpending : id ∈ store.pending <;> by_cases hcompleted : id ∈ store.completed <;>
      simp [SwapCall.stage, Stage.alone, Stage.next, SwapCall.run, SwapStore.removeSwap, hpending,
        hcompleted]

theorem Stage.next_current {id : String} {stage stage' : Stage} {read read' : List String}
    {store store' : SwapStore} (h : stage.next id read store = (store', some (stage', read'))) :
    stage'.Current read' store' ∧ stage'.isPersist = stage.isPersist := by
  cases stage with
  | persistGet | moveGetCompleted =>
    simp only [Stage.next, Prod.mk.injEq] at h
    obtain ⟨rfl, h⟩ := h
    split at h
    · cases h
    · cases h
      exact ⟨rfl, rfl⟩
  | removeGetPending =>
    simp only [Stage.next, Prod.mk.injEq] at h
    obtain ⟨rfl, h⟩ := h
    split at h
    · cases h
      exact ⟨rfl, rfl⟩
    · cases h
      exact ⟨trivial, rfl⟩
  | removeGetCompleted =>
    simp only [Stage.next, Prod.mk.injEq] at h
    obtain ⟨rfl, h⟩ := h
    split at h
    · cases h
      exact ⟨rfl, rfl⟩
    · cases h
  | moveGetPending =>
    cases h
    exact ⟨rfl, rfl⟩
  | persistData _ | movePutPending | removeData | removePutPending =>
    cases h
    exact ⟨trivial, rfl⟩
  | persistPut | movePutCompleted | removePutCompleted => cases h

/-! ## Calls at the same time -/

/-- A store, the calls under way, at most one for each swap, and what has happened so far. -/
structure SwapSystem where
  store : SwapStore
  calls : String → Option (Stage × List String)
  /-- `persist_and_add_to_pending` has returned `Ok`. -/
  persisted : String → Bool
  /-- `move_to_completed` was called. -/
  moved : String → Bool
  /-- `remove_swap` was called. -/
  removed : String → Bool
  /-- Some call was cut off by an error or a crash. -/
  interrupted : Bool

inductive SwapEvent
  | start (id : String) (call : SwapCall)
  /-- The next store operation of a swap's call. -/
  | step (id : String)
  /-- That operation fails, and the call returns its error. -/
  | fail (id : String)
  /-- The process stops; what is stored stays. -/
  | crash

namespace SwapSystem

def init : SwapSystem where
  store := ⟨[], [], fun _ => none⟩
  calls := fun _ => none
  persisted := fun _ => false
  moved := fun _ => false
  removed := fun _ => false
  interrupted := false

variable (s : SwapSystem) (id : String)

/-- Begin a call, unless one on the swap is under way. -/
def start (call : SwapCall) : Option SwapSystem :=
  match s.calls id with
  | some _ => none
  | none =>
    let s := { s with calls := Function.update s.calls id (some (call.stage, [])) }
    match call with
    | .persistAndAddToPending _ => some s
    | .moveToCompleted => some { s with moved := Function.update s.moved id true }
    | .removeSwap => some { s with removed := Function.update s.removed id true }

def step : Option SwapSystem :=
  match s.calls id with
  | none => none
  | some (stage, read) =>
    let (store, after) := stage.next id read s.store
    some { s with
      store
      calls := Function.update s.calls id after
      persisted :=
        if stage.isPersist && after.isNone then Function.update s.persisted id true
        else s.persisted }

def fail : Option SwapSystem :=
  match s.calls id with
  | none => none
  | some _ => some { s with calls := Function.update s.calls id none, interrupted := true }

def next : SwapEvent → Option SwapSystem
  | .start id call => s.start id call
  | .step id => s.step id
  | .fail id => s.fail id
  | .crash => some { s with calls := fun _ => none, interrupted := true }

def run (events : List SwapEvent) : Option SwapSystem := events.foldlM next s

/-- A swap's call is between the two puts of `move_to_completed`. -/
def BetweenPuts : Prop :=
  ∃ stage read, s.calls id = some (stage, read) ∧ stage.betweenPuts = true

def Kept : Prop :=
  (s.store.data id).isSome = true ∧ (id ∈ s.store.pending ∨ id ∈ s.store.completed)

/-- A swap is once in the one list it belongs to. -/
def Filed : Prop :=
  s.store.pending.count id = (if s.moved id then 0 else 1) ∧
    s.store.completed.count id = if s.moved id then 1 else 0

/-- **What must not happen.** A put finds the list as its call read it; no call is cut off between
the two puts of `move_to_completed`; and no swap is added again after it was moved. -/
def Orderly : SwapEvent → Prop
  | .start id (.persistAndAddToPending _) => s.moved id = false
  | .start _ _ => True
  | .step id => ∀ stage read, s.calls id = some (stage, read) → stage.Current read s.store
  | .fail id => ¬ s.BetweenPuts id
  | .crash => ∀ id, ¬ s.BetweenPuts id

end SwapSystem

/-! ## One swap at a time -/

structure SwapView where
  pending : Nat
  completed : Nat
  stored : Bool
  call : Option Stage
  persisted : Bool
  moved : Bool
  removed : Bool

namespace SwapView

variable (v : SwapView) (interrupted : Bool)

/-- The next store operation of the swap's call. -/
def step : SwapView :=
  match v.call with
  | none => v
  | some (.persistData _) => { v with stored := true, call := some .persistGet }
  | some .persistGet =>
    if v.pending = 0 then { v with call := some .persistPut }
    else { v with call := none, persisted := true }
  | some .persistPut => { v with pending := v.pending + 1, call := none, persisted := true }
  | some .moveGetPending => { v with call := some .movePutPending }
  | some .movePutPending => { v with pending := 0, call := some .moveGetCompleted }
  | some .moveGetCompleted =>
    { v with call := if v.completed = 0 then some .movePutCompleted else none }
  | some .movePutCompleted => { v with completed := v.completed + 1, call := none }
  | some .removeData => { v with stored := false, call := some .removeGetPending }
  | some .removeGetPending =>
    { v with call := some (if v.pending = 0 then .removeGetCompleted else .removePutPending) }
  | some .removePutPending => { v with pending := 0, call := some .removeGetCompleted }
  | some .removeGetCompleted =>
    { v with call := if v.completed = 0 then none else some .removePutCompleted }
  | some .removePutCompleted => { v with completed := 0, call := none }

def start (call : SwapCall) : SwapView :=
  match call with
  | .persistAndAddToPending data => { v with call := some (.persistData data) }
  | .moveToCompleted => { v with call := some .moveGetPending, moved := true }
  | .removeSwap => { v with call := some .removeData, removed := true }

def Safe : Prop := v.stored = true ∧ (0 < v.pending ∨ 0 < v.completed)

def Filed : Prop :=
  v.pending = (if v.moved then 0 else 1) ∧ v.completed = if v.moved then 1 else 0

/-- What holds of a swap with no call under way. Only a move completes; and a swap that was
persisted is safe, and filed unless some call was cut off. -/
def Idle : Prop :=
  (v.moved = false → v.completed = 0) ∧
    (v.removed = false → v.persisted = true → v.Safe ∧ (interrupted = false → v.Filed))

/-- What holds of a swap when its call comes to each of its store operations. -/
def AtStage : Stage → Prop
  | .persistData _ => v.Idle interrupted ∧ v.moved = false
  | .persistGet => v.Idle interrupted ∧ v.moved = false ∧ v.stored = true
  | .persistPut => v.Idle interrupted ∧ v.moved = false ∧ v.stored = true ∧ v.pending = 0
  | .moveGetPending | .movePutPending =>
    v.moved = true ∧ (v.removed = false → v.persisted = true → v.Safe)
  | .moveGetCompleted =>
    v.moved = true ∧ (v.removed = false → v.persisted = true → v.stored = true) ∧ v.pending = 0
  | .movePutCompleted =>
    v.moved = true ∧ (v.removed = false → v.persisted = true → v.stored = true) ∧
      v.pending = 0 ∧ v.completed = 0
  | .removeData | .removeGetPending | .removePutPending | .removeGetCompleted
  | .removePutCompleted => v.removed = true ∧ (v.moved = false → v.completed = 0)

def Ok : Prop :=
  v.pending ≤ 1 ∧ v.completed ≤ 1 ∧
    match v.call with
    | none => v.Idle interrupted
    | some stage => v.AtStage interrupted stage

variable {v : SwapView} {interrupted : Bool}

/-- **Each store operation leads to what the next one assumes.** -/
theorem Ok.step (h : v.Ok interrupted) : v.step.Ok interrupted := by
  obtain ⟨hpending, hcompleted, hcall⟩ := h
  unfold SwapView.step
  cases hstage : v.call with
  | none =>
    show v.Ok interrupted
    unfold SwapView.Ok
    rw [hstage]
    rw [hstage] at hcall
    exact ⟨hpending, hcompleted, hcall⟩
  | some stage =>
    rw [hstage] at hcall
    cases stage with
    | persistData data =>
      obtain ⟨⟨hmoved, hidle⟩, hnot⟩ := hcall
      refine ⟨hpending, hcompleted, ⟨hmoved, ?_⟩, hnot, rfl⟩
      intro hremoved hpersisted
      have hsafe := hidle hremoved hpersisted
      exact ⟨⟨rfl, hsafe.1.2⟩, hsafe.2⟩
    | persistGet =>
      obtain ⟨hidle, hnot, hstored⟩ := hcall
      by_cases hzero : v.pending = 0
      · rw [if_pos hzero]
        exact ⟨hpending, hcompleted, hidle, hnot, hstored, hzero⟩
      · rw [if_neg hzero]
        have hone : v.pending = 1 := by omega
        refine ⟨hpending, hcompleted, hidle.1, ?_⟩
        intro hremoved hpersisted
        refine ⟨⟨hstored, .inl (Nat.pos_of_ne_zero hzero)⟩, ?_⟩
        intro hintact
        simp [SwapView.Filed, hnot, hone, hidle.1 hnot]
    | persistPut =>
      obtain ⟨hidle, hnot, hstored, hzero⟩ := hcall
      have hone : v.pending + 1 = 1 := by omega
      refine ⟨Nat.le_of_eq hone, hcompleted, hidle.1, ?_⟩
      intro hremoved hpersisted
      refine ⟨⟨hstored, .inl (Nat.succ_pos _)⟩, ?_⟩
      intro hintact
      simp [SwapView.Filed, hnot, hzero, hidle.1 hnot]
    | moveGetPending => exact ⟨hpending, hcompleted, hcall⟩
    | movePutPending =>
      obtain ⟨hmoved, hsafe⟩ := hcall
      refine ⟨Nat.zero_le _, hcompleted, hmoved, ?_, rfl⟩
      intro hremoved hpersisted
      exact (hsafe hremoved hpersisted).1
    | moveGetCompleted =>
      obtain ⟨hmoved, hstored, hzero⟩ := hcall
      by_cases hnone : v.completed = 0
      · rw [if_pos hnone]
        exact ⟨hpending, hcompleted, hmoved, hstored, hzero, hnone⟩
      · rw [if_neg hnone]
        have hone : v.completed = 1 := by omega
        refine ⟨hpending, hcompleted, ?_, ?_⟩
        · simp [hmoved]
        · intro hremoved hpersisted
          refine ⟨⟨hstored hremoved hpersisted, .inr (Nat.pos_of_ne_zero hnone)⟩, ?_⟩
          intro hintact
          simp [SwapView.Filed, hmoved, hzero, hone]
    | movePutCompleted =>
      obtain ⟨hmoved, hstored, hzero, hnone⟩ := hcall
      have hone : v.completed + 1 = 1 := by omega
      refine ⟨hpending, Nat.le_of_eq hone, ?_, ?_⟩
      · simp [hmoved]
      · intro hremoved hpersisted
        refine ⟨⟨hstored hremoved hpersisted, .inr (Nat.succ_pos _)⟩, ?_⟩
        intro hintact
        simp [SwapView.Filed, hmoved, hzero, hnone]
    | removeData => exact ⟨hpending, hcompleted, hcall⟩
    | removeGetPending =>
      dsimp only
      split <;> exact ⟨hpending, hcompleted, hcall⟩
    | removePutPending => exact ⟨Nat.zero_le _, hcompleted, hcall⟩
    | removeGetCompleted =>
      dsimp only
      by_cases hnone : v.completed = 0
      · rw [if_pos hnone]
        exact ⟨hpending, hcompleted, hcall.2, fun hremoved => by simp [hcall.1] at hremoved⟩
      · rw [if_neg hnone]
        exact ⟨hpending, hcompleted, hcall⟩
    | removePutCompleted =>
      exact ⟨hpending, Nat.zero_le _, fun _ => rfl, fun hremoved => by simp [hcall.1] at hremoved⟩

/-- A call may begin on a swap with none under way, unless it adds what was moved. -/
theorem Ok.start (h : v.Ok interrupted) (hfree : v.call = none) (call : SwapCall)
    (hcall : ∀ data, call = .persistAndAddToPending data → v.moved = false) :
    (v.start call).Ok interrupted := by
  obtain ⟨hpending, hcompleted, hidle⟩ := h
  rw [hfree] at hidle
  cases call with
  | persistAndAddToPending data => exact ⟨hpending, hcompleted, hidle, hcall data rfl⟩
  | moveToCompleted =>
    exact ⟨hpending, hcompleted, rfl, fun hremoved hpersisted => (hidle.2 hremoved hpersisted).1⟩
  | removeSwap => exact ⟨hpending, hcompleted, rfl, hidle.1⟩

theorem Ok.interrupt (h : v.Ok interrupted) : v.Ok true := by
  obtain ⟨hpending, hcompleted, hcall⟩ := h
  refine ⟨hpending, hcompleted, ?_⟩
  have hidle : v.Idle interrupted → v.Idle true := by
    rintro ⟨hmoved, hsafe⟩
    refine ⟨hmoved, ?_⟩
    intro hremoved hpersisted
    exact ⟨(hsafe hremoved hpersisted).1, fun hintact => by cases hintact⟩
  cases hstage : v.call with
  | none =>
    rw [hstage] at hcall
    exact hidle hcall
  | some stage =>
    rw [hstage] at hcall
    cases stage with
    | persistData _ | persistGet | persistPut => exact ⟨hidle hcall.1, hcall.2⟩
    | _ => exact hcall

theorem Ok.atBetweenPuts (h : v.Ok interrupted) {stage : Stage} (hcall : v.call = some stage)
    (hstage : stage.betweenPuts = true) :
    (v.removed = false → v.persisted = true → v.stored = true) ∧ v.pending = 0 := by
  obtain ⟨-, -, hat⟩ := h
  rw [hcall] at hat
  cases stage with
  | moveGetCompleted => exact hat.2
  | movePutCompleted => exact ⟨hat.2.1, hat.2.2.1⟩
  | _ => cases hstage

/-- A call that is not between the puts of a move may be cut off. -/
theorem Ok.cutOff (h : v.Ok interrupted)
    (hbetween : ∀ stage, v.call = some stage → stage.betweenPuts = false) :
    ({ v with call := none } : SwapView).Ok true := by
  obtain ⟨hpending, hcompleted, hcall⟩ := h.interrupt
  refine ⟨hpending, hcompleted, ?_⟩
  show v.Idle true
  cases hstage : v.call with
  | none =>
    rw [hstage] at hcall
    exact hcall
  | some stage =>
    rw [hstage] at hcall
    have hnot := hbetween stage hstage
    cases stage with
    | persistData _ | persistGet | persistPut => exact hcall.1
    | moveGetPending | movePutPending =>
      refine ⟨by simp [hcall.1], ?_⟩
      intro hremoved hpersisted
      exact ⟨hcall.2 hremoved hpersisted, fun hintact => by cases hintact⟩
    | moveGetCompleted | movePutCompleted => cases hnot
    | _ => exact ⟨hcall.2, fun hremoved => by simp [hcall.1] at hremoved⟩

end SwapView

/-! ## From one swap to all -/

namespace SwapSystem

def view (s : SwapSystem) (id : String) : SwapView where
  pending := s.store.pending.count id
  completed := s.store.completed.count id
  stored := (s.store.data id).isSome
  call := (s.calls id).map Prod.fst
  persisted := s.persisted id
  moved := s.moved id
  removed := s.removed id

variable {s s' : SwapSystem} {id j : String} {call : SwapCall}

theorem count_add_other (hne : j ≠ id) (l : List String) : (l ++ [id]).count j = l.count j := by
  have hnot : j ∉ [id] := by simpa using hne
  rw [count_append, count_eq_zero_of_not_mem hnot]
  rfl

theorem count_retain_self (l : List String) : (retainOthers id l).count id = 0 := by
  apply count_eq_zero_of_not_mem
  simp [retainOthers]

theorem count_retain_other (hne : j ≠ id) (l : List String) :
    (retainOthers id l).count j = l.count j := by
  apply count_filter
  simpa using hne

theorem start_view (h : s.start id call = some s') :
    s.calls id = none ∧ s'.view id = (s.view id).start call ∧
      (∀ j, j ≠ id → s'.view j = s.view j) ∧ s'.interrupted = s.interrupted := by
  unfold start at h
  cases hfree : s.calls id with
  | some c =>
    rw [hfree] at h
    cases h
  | none =>
    rw [hfree] at h
    refine ⟨rfl, ?_⟩
    cases call
    all_goals
      cases h
      refine ⟨?_, ?_, rfl⟩
      · simp [view, SwapView.start, SwapCall.stage]
      · intro j hne
        simp [view, update_of_ne hne]

/-- A step of an orderly run is a step of its swap's view. -/
theorem step_view_self (h : s.step id = some s') (horderly : s.Orderly (.step id)) :
    s'.view id = (s.view id).step := by
  unfold step at h
  cases hcalls : s.calls id with
  | none =>
    rw [hcalls] at h
    cases h
  | some c =>
    obtain ⟨stage, read⟩ := c
    have hread := horderly stage read hcalls
    rw [hcalls] at h
    cases h
    have hview : (s.view id).call = some stage := by simp [view, hcalls]
    unfold SwapView.step
    rw [hview]
    cases stage with
    | persistPut | movePutCompleted =>
      subst hread
      simp [view, Stage.isPersist]
    | persistData data => simp [view, Stage.isPersist, SwapStore.persist]
    | persistGet | removeGetPending =>
      by_cases hmem : id ∈ s.store.pending <;> simp [view, Stage.isPersist, hmem, count_eq_zero]
    | moveGetCompleted | removeGetCompleted =>
      by_cases hmem : id ∈ s.store.completed <;> simp [view, Stage.isPersist, hmem, count_eq_zero]
    | _ => simp [view, Stage.isPersist, count_retain_self]

/-- A put of one swap's call leaves the others where they are, if it writes what was read. -/
theorem step_view_other (h : s.step id = some s') (horderly : s.Orderly (.step id)) (hne : j ≠ id) :
    s'.view j = s.view j := by
  unfold step at h
  cases hcalls : s.calls id with
  | none =>
    rw [hcalls] at h
    cases h
  | some c =>
    obtain ⟨stage, read⟩ := c
    have hread := horderly stage read hcalls
    rw [hcalls] at h
    cases h
    have hpersisted : ∀ p : Bool,
        (if p then update s.persisted id true else s.persisted) j = s.persisted j := by
      intro p
      cases p with
      | true => exact update_of_ne hne _ _
      | false => rfl
    unfold view
    dsimp only
    rw [hpersisted, update_of_ne hne]
    cases stage with
    | persistData data => simp [SwapStore.persist, update_of_ne hne]
    | removeData => simp [update_of_ne hne]
    | persistPut | movePutCompleted =>
      subst hread
      simp only [count_add_other hne]
    | movePutPending | removePutPending | removePutCompleted =>
      subst hread
      simp only [count_retain_other hne]
    | _ => rfl

theorem step_interrupted (h : s.step id = some s') : s'.interrupted = s.interrupted := by
  unfold step at h
  cases hcalls : s.calls id with
  | none =>
    rw [hcalls] at h
    cases h
  | some c =>
    rw [hcalls] at h
    cases h
    rfl

theorem view_call_of_not_betweenPuts (h : ¬ s.BetweenPuts id) :
    ∀ stage, (s.view id).call = some stage → stage.betweenPuts = false := by
  intro stage hstage
  by_contra hbetween
  have hstage' : (s.calls id).map Prod.fst = some stage := hstage
  obtain ⟨⟨_, read⟩, hcalls, rfl⟩ := Option.map_eq_some_iff.1 hstage'
  exact h ⟨_, read, hcalls, by simpa using hbetween⟩

def Inv (s : SwapSystem) : Prop := ∀ id, (s.view id).Ok s.interrupted

theorem inv_init : init.Inv := by
  intro id
  refine ⟨Nat.zero_le _, Nat.zero_le _, fun _ => rfl, ?_⟩
  intro _ hpersisted
  cases hpersisted

theorem Inv.next {e : SwapEvent} (h : s.Inv) (horderly : s.Orderly e) (hnext : s.next e = some s') :
    s'.Inv := by
  intro j
  cases e with
  | start id call =>
    obtain ⟨hfree, hself, hother, hinterrupted⟩ := start_view hnext
    rw [hinterrupted]
    by_cases hj : j = id
    · subst hj
      rw [hself]
      refine (h j).start (by simp [view, hfree]) call ?_
      rintro data rfl
      exact horderly
    · rw [hother j hj]
      exact h j
  | step id =>
    rw [step_interrupted hnext]
    by_cases hj : j = id
    · subst hj
      rw [step_view_self hnext horderly]
      exact (h j).step
    · rw [step_view_other hnext horderly hj]
      exact h j
  | fail id =>
    have hfail : s.fail id = some s' := hnext
    unfold fail at hfail
    cases hcalls : s.calls id with
    | none =>
      rw [hcalls] at hfail
      cases hfail
    | some c =>
      rw [hcalls] at hfail
      cases hfail
      by_cases hj : j = id
      · subst hj
        have hcut := (h j).cutOff (view_call_of_not_betweenPuts horderly)
        simpa [view] using hcut
      · have hsame := (h j).interrupt
        simpa [view, update_of_ne hj] using hsame
  | crash =>
    cases hnext
    exact (h j).cutOff (view_call_of_not_betweenPuts (horderly j))

inductive OrderlyRun : SwapSystem → Prop
  | init : OrderlyRun init
  | next {s s' : SwapSystem} {e : SwapEvent} (h : OrderlyRun s) (horderly : s.Orderly e)
      (hnext : s.next e = some s') : OrderlyRun s'

theorem OrderlyRun.inv (h : OrderlyRun s) : s.Inv := by
  induction h with
  | init => exact inv_init
  | next _ horderly hnext ih => exact ih.next horderly hnext

theorem OrderlyRun.alone {stage : Stage} {read : List String} {store : SwapStore} (h : OrderlyRun s)
    (hcalls : s.calls id = some (stage, read)) (hcurrent : stage.Current read s.store) {n : Nat}
    (halone : stage.alone id n read s.store = some store) :
    OrderlyRun { s with
      store
      calls := Function.update s.calls id none
      persisted := if stage.isPersist then Function.update s.persisted id true
        else s.persisted } := by
  induction n generalizing s stage read with
  | zero => cases halone
  | succ n ih =>
    have horderly : s.Orderly (.step id) := by
      intro stage' read' hcalls'
      cases hcalls.symm.trans hcalls'
      exact hcurrent
    unfold Stage.alone at halone
    cases hnext : stage.next id read s.store with
    | mk store₁ after =>
      rw [hnext] at halone
      have hstep : s.step id = some { s with
          store := store₁
          calls := update s.calls id after
          persisted := if stage.isPersist && after.isNone then
            update s.persisted id true else s.persisted } := by
        unfold step
        rw [hcalls]
        simp only [hnext]
      cases after with
      | none =>
        cases halone
        simpa using h.next horderly hstep
      | some c =>
        obtain ⟨stage', read'⟩ := c
        obtain ⟨hcurrent', hpersist⟩ := Stage.next_current hnext
        have hrun := ih (h.next horderly hstep) (update_self _ _ _) hcurrent' halone
        simpa [hpersist, update_idem] using hrun

def called (s : SwapSystem) (id : String) : SwapCall → SwapSystem
  | .persistAndAddToPending data => { s with
      store := s.store.persistAndAddToPending id data
      persisted := Function.update s.persisted id true }
  | .moveToCompleted => { s with
      store := s.store.moveToCompleted id
      moved := Function.update s.moved id true }
  | .removeSwap => { s with
      store := s.store.removeSwap id
      removed := Function.update s.removed id true }

theorem OrderlyRun.called (h : OrderlyRun s) (hfree : s.calls id = none)
    (horderly : s.Orderly (.start id call)) : OrderlyRun (s.called id call) := by
  have hnext : s.next (.start id call) = some { s.called id call with
      store := s.store
      calls := update s.calls id (some (call.stage, []))
      persisted := s.persisted } := by
    cases call <;> simp [SwapSystem.next, SwapSystem.start, hfree, SwapSystem.called]
  have hrun := (h.next horderly hnext).alone (update_self _ _ _) (by cases call <;> trivial)
    (SwapCall.stage_alone call id _)
  have hcalls : update (update s.calls id (some (call.stage, []))) id none = s.calls := by
    rw [update_idem, ← hfree, update_eq_self]
  rw [hcalls] at hrun
  cases call <;> exact hrun

/-- **No swap is lost in an orderly run.** At every point a swap that was persisted is stored and in
a list, unless its call stands between the two puts of a move; and once all calls have returned it
is in exactly one list, once, the completed one if and only if it was moved. -/
theorem swaps_kept_of_orderly (h : OrderlyRun s) :
    (∀ id, s.persisted id = true → s.removed id = false →
      (s.Kept id ↔ (s.BetweenPuts id → id ∈ s.store.completed))) ∧
      ((∀ id, s.calls id = none) → s.interrupted = false →
        ∀ id, s.persisted id = true → s.removed id = false → s.Filed id) := by
  refine ⟨?_, ?_⟩
  · intro id hpersisted hremoved
    by_cases hbetween : s.BetweenPuts id
    · obtain ⟨stage, read, hcalls, hstage⟩ := hbetween
      obtain ⟨hstored, hzero⟩ := (h.inv id).atBetweenPuts (by simp [view, hcalls]) hstage
      have hpending : id ∉ s.store.pending := count_eq_zero.1 hzero
      have hdata : (s.store.data id).isSome = true := hstored hremoved hpersisted
      simp [Kept, BetweenPuts, hcalls, hstage, hpending, hdata]
    · -- A crash now would not hurt this swap, so it is safe as it is.
      obtain ⟨-, -, -, hidle⟩ := (h.inv id).cutOff (view_call_of_not_betweenPuts hbetween)
      obtain ⟨⟨hstored, hlisted⟩, -⟩ := hidle hremoved hpersisted
      have hkept : s.Kept id := by
        exact ⟨hstored, hlisted.imp count_pos_iff.1 count_pos_iff.1⟩
      exact ⟨fun _ hnot => absurd hnot hbetween, fun _ => hkept⟩
  · intro hreturned hintact id hpersisted hremoved
    obtain ⟨-, -, hcall⟩ := h.inv id
    have hnone : (s.view id).call = none := by simp [view, hreturned id]
    rw [hnone] at hcall
    exact (hcall.2 hremoved hpersisted).2 hintact

end SwapSystem

namespace LostSwap

open SwapSystem SwapEvent

def interleaved : List SwapEvent :=
  [start "a" (.persistAndAddToPending "json"), start "b" (.persistAndAddToPending "json"),
    step "a", step "b", step "a", step "b", step "a", step "b"]

def crashed : List SwapEvent :=
  [start "a" (.persistAndAddToPending "json"), step "a", step "a", step "a",
    start "a" .moveToCompleted, step "a", step "a", crash]

/-- Both calls return `Ok`, and the first swap is in no list; and a crash loses one as well. -/
theorem swap_lost :
    (∃ s, init.run interleaved = some s ∧ (∀ id, s.calls id = none) ∧ s.interrupted = false ∧
      s.persisted "a" = true ∧ s.removed "a" = false ∧ ¬ s.Kept "a") ∧
    ∃ s, init.run crashed = some s ∧ s.persisted "a" = true ∧ s.removed "a" = false ∧
      ¬ s.Kept "a" := by
  refine ⟨⟨_, rfl, ?_, rfl, by decide, by decide, ?_⟩, ⟨_, rfl, by decide, by decide, ?_⟩⟩
  · intro id
    simp only [update_apply]
    split_ifs <;> rfl
  all_goals
    unfold Kept
    decide

def created : SwapSystem :=
  (init.called "a" (.persistAndAddToPending "json")).called "b" (.persistAndAddToPending "json")

theorem swaps_kept_of_sequential : (created.called "a" .moveToCompleted).Filed "a" ∧
      (created.called "a" .moveToCompleted).Filed "b" := by
  have hfirst : OrderlyRun (init.called "a" (.persistAndAddToPending "json")) :=
    OrderlyRun.init.called rfl (Eq.refl false)
  have hboth : OrderlyRun created := hfirst.called rfl (Eq.refl false)
  have hrun : OrderlyRun (created.called "a" .moveToCompleted) := hboth.called rfl trivial
  have hfiled := (swaps_kept_of_orderly hrun).2 (fun _ => rfl) rfl
  exact ⟨hfiled "a" rfl rfl, hfiled "b" rfl rfl⟩

end LostSwap

/-- **The lists of an orderly run**, with calls under way, failed or cut off, have no swap twice,
and only a move completes one. -/
theorem SwapSystem.lists_nodup_of_orderly {s : SwapSystem} (h : OrderlyRun s) :
    s.store.pending.Nodup ∧ s.store.completed.Nodup ∧
      ∀ id ∈ s.store.completed, s.moved id = true := by
  refine ⟨nodup_iff_count.2 fun id => (h.inv id).1,
    nodup_iff_count.2 fun id => (h.inv id).2.1, fun id hid => ?_⟩
  by_contra hmoved
  have hnot : (s.view id).moved = false := Bool.eq_false_iff.2 hmoved
  have hzero : (s.view id).completed = 0 := by
    obtain ⟨-, -, hcall⟩ := h.inv id
    cases hstage : (s.view id).call with
    | none => exact (hstage ▸ hcall).1 hnot
    | some stage =>
      rw [hstage] at hcall
      cases stage with
      | persistData | persistGet | persistPut => exact hcall.1.1 hnot
      | moveGetPending | movePutPending | moveGetCompleted | movePutCompleted =>
        exact absurd hcall.1 (by simp [hnot])
      | _ => exact hcall.2 hnot
  exact count_eq_zero.1 hzero hid

theorem LostSwap.created_lists_nodup : created.store.pending.Nodup := by
  have hfirst : SwapSystem.OrderlyRun
      (SwapSystem.init.called "a" (.persistAndAddToPending "json")) :=
    SwapSystem.OrderlyRun.init.called rfl (Eq.refl false)
  exact (SwapSystem.lists_nodup_of_orderly (s := created) (hfirst.called rfl (Eq.refl false))).1

end Swk
