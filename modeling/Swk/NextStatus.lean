import Mathlib.Data.List.Basic
import Swk.SwapProgress

/-!
# Waiting for a swap status

`next_status` waits for the next update of one swap. All swaps share a broadcast channel, so the
loop goes on after an update of another one, and computes anew how much time is left: the deadline
minus the time, as `u64`, with no test that the deadline has not passed.

Time is the clock the code reads, in milliseconds. A turn of the loop reads it, and then waits for
a message or for the end of a sleep, whichever is first; if both are there at once, either may be
taken. The readings, the messages with their arrival times and those picks are given, and the
model says what is returned and when.

`honours_iff` says which runs honour the deadline: those in which the clock does not pass it
before a turn begins, no update of the swap is left waiting when the time is up, and the deadline
itself is a `u64`.
-/

namespace Swk.Boltz

/-! ## The loop -/

/-- A message of the channel: the swap it is for, the update, and when it arrives. -/
structure Broadcast where
  id : String
  update : SwapStatus
  time : Nat

inductive WaitError
  | receiver (msg : String)
  | tryReceiver (msg : String)
  | noBoltzUpdate
  | timeout (swapId : String)
deriving DecidableEq

/-- What a receiver gets, and when: a message, or an error of the channel. -/
structure Received where
  message : Except String Broadcast
  time : Nat

/-- A message that is received when it arrives. -/
def Broadcast.received (u : Broadcast) : Received := ⟨.ok u, u.time⟩

/-- What a call returns and when, and whether a subtraction on the way went below zero. -/
structure Outcome where
  result : Except WaitError SwapStatus
  time : Nat
  underflowed : Bool

/-- When a sleep until the deadline ends that begins at `now`. -/
def sleepEnds (deadline now : UInt64) : Nat := now.toNat + (deadline - now).toNat

/-- The loop, without polling. The clock is read at the beginning of each turn; `pick` says
whether a turn takes the message where the sleep ends at the same time. -/
def waitLoop (deadline : UInt64) (swapId : String) :
    List Received → (Nat → UInt64) → (Nat → Bool) → Outcome
  | [], clock, _ =>
    ⟨.error (.timeout swapId), sleepEnds deadline (clock 0), decide (deadline < clock 0)⟩
  | r :: rest, clock, pick =>
    let now := clock 0
    let ready := max r.time now.toNat
    let underflows := decide (deadline < now)
    if sleepEnds deadline now < ready ∨ sleepEnds deadline now = ready ∧ pick 0 = false then
      ⟨.error (.timeout swapId), sleepEnds deadline now, underflows⟩
    else
      match r.message with
      | .error e => ⟨.error (.receiver e), ready, underflows⟩
      | .ok u =>
        if u.id ≠ swapId then
          let o := waitLoop deadline swapId rest (fun k => clock (k + 1)) fun k => pick (k + 1)
          { o with underflowed := underflows || o.underflowed }
        else ⟨.ok u.update, ready, underflows⟩

/-- The loop with polling: only what is in the channel already. -/
def pollLoop (swapId : String) : List (Except String Broadcast) → Except WaitError SwapStatus
  | [] => .error .noBoltzUpdate
  | .error e :: _ => .error (.tryReceiver e)
  | .ok u :: rest => if u.id ≠ swapId then pollLoop swapId rest else .ok u.update

/-- The deadline: the milliseconds of the timeout are a `u128`, cast to `u64`. -/
def deadlineOf (start : UInt64) (timeoutMillis : Nat) : UInt64 :=
  start + UInt64.ofNat timeoutMillis

def nextStatus (received : List Received) (start : UInt64) (clock : Nat → UInt64)
    (pick : Nat → Bool) (timeoutMillis : Nat) (swapId : String) (polling : Bool) : Outcome :=
  if polling then
    let queued := received.takeWhile fun r => r.time ≤ start.toNat
    ⟨pollLoop swapId (queued.map (·.message)), start.toNat, false⟩
  else waitLoop (deadlineOf start timeoutMillis) swapId received clock pick

/-! ## Honouring a deadline -/

/-- The first update of a swap that arrives before a deadline. -/
def firstBefore (deadline : Nat) (swapId : String) (us : List Broadcast) : Option Broadcast :=
  us.find? fun u => decide (u.id = swapId) && decide (u.time < deadline)

/-- A call honours a deadline. Nothing underflows; the first update of the swap that arrives
before the deadline is returned; if none arrives by then, the call times out; it times out only
once the deadline is reached, and never waits past it. At the deadline itself an update may be
returned or not. -/
structure Honours (deadline : Nat) (swapId : String) (us : List Broadcast) (o : Outcome) :
    Prop where
  noUnderflow : o.underflowed = false
  first : ∀ u, firstBefore deadline swapId us = some u → o.result = .ok u.update
  timesOut : (∀ u ∈ us, u.id = swapId → deadline < u.time) → o.result = .error (.timeout swapId)
  returned : ∀ s, o.result = .ok s → ∃ u ∈ us, u.id = swapId ∧ u.time ≤ deadline ∧ s = u.update
  notEarly : o.result = .error (.timeout swapId) → deadline ≤ o.time
  prompt : o.time ≤ deadline

/-- The clock and the messages leave the loop no turn that goes wrong: where a turn begins, the
clock has not passed the deadline, and where its sleep may end the turn, the deadline has not
wrapped and no update of the swap arrived before it. A turn is followed by another if its message
is for another swap and arrives by the deadline. -/
def Safe (start : UInt64) (timeoutMillis : Nat) (swapId : String) :
    List Broadcast → (Nat → UInt64) → Prop
  | [], clock =>
    clock 0 ≤ deadlineOf start timeoutMillis ∧ start.toNat + timeoutMillis < 2 ^ 64
  | u :: us, clock =>
    let deadline := deadlineOf start timeoutMillis
    clock 0 ≤ deadline ∧ (clock 0 = deadline ∨ deadline.toNat ≤ u.time →
        start.toNat + timeoutMillis < 2 ^ 64 ∧
          ∀ v ∈ u :: us, v.id = swapId → start.toNat + timeoutMillis ≤ v.time) ∧
      (u.id ≠ swapId → u.time ≤ deadline.toNat →
        Safe start timeoutMillis swapId us fun k => clock (k + 1))

/-! ## Which runs honour it -/

section Honours

variable {start : UInt64} {timeoutMillis : Nat} {swapId : String}

theorem toNat_deadlineOf :
    (deadlineOf start timeoutMillis).toNat = (start.toNat + timeoutMillis) % 2 ^ 64 := by
  rw [deadlineOf, UInt64.toNat_add, UInt64.toNat_ofNat', Nat.add_mod_mod]

theorem toNat_deadlineOf_le :
    (deadlineOf start timeoutMillis).toNat ≤ start.toNat + timeoutMillis := by
  rw [toNat_deadlineOf]
  exact Nat.mod_le _ _

theorem le_deadlineOf_iff : start.toNat + timeoutMillis ≤
    (deadlineOf start timeoutMillis).toNat ↔ start.toNat + timeoutMillis < 2 ^ 64 := by
  rw [toNat_deadlineOf]
  refine ⟨fun h => ?_, fun h => ?_⟩
  · exact Nat.lt_of_le_of_lt h (Nat.mod_lt _ (Nat.two_pow_pos 64))
  · rw [Nat.mod_eq_of_lt h]

theorem sleepEnds_eq {deadline now : UInt64} (h : now ≤ deadline) :
    sleepEnds deadline now = deadline.toNat := by
  have hle := UInt64.le_iff_toNat_le.1 h
  rw [sleepEnds, UInt64.toNat_sub_of_le _ _ h]
  omega

variable {us : List Broadcast}

theorem firstBefore_eq_none_iff {deadline : Nat} :
    firstBefore deadline swapId us = none ↔ ∀ u ∈ us, u.id = swapId → deadline ≤ u.time := by
  rw [firstBefore, List.find?_eq_none]
  refine forall_congr' fun u => forall_congr' fun _ => ?_
  simp

theorem honours_cons_other {deadline : Nat} {u : Broadcast} {o : Outcome}
    (h : u.id ≠ swapId) : Honours deadline swapId (u :: us) o ↔ Honours deadline swapId us o := by
  have hfirst : firstBefore deadline swapId (u :: us) = firstBefore deadline swapId us := by
    rw [firstBefore, List.find?_cons_of_neg (by simp [h]), firstBefore]
  have hnone : (∀ v ∈ u :: us, v.id = swapId → deadline < v.time) ↔
      ∀ v ∈ us, v.id = swapId → deadline < v.time := by simp [h]
  have hsome : ∀ s, (∃ v ∈ u :: us, v.id = swapId ∧ v.time ≤ deadline ∧ s = v.update) ↔
      ∃ v ∈ us, v.id = swapId ∧ v.time ≤ deadline ∧ s = v.update := by simp [h]
  refine ⟨fun ho => ?_, fun ho => ?_⟩
  · exact ⟨ho.noUnderflow, fun v hv => ho.first v (hfirst.trans hv),
      fun hv => ho.timesOut (hnone.2 hv), fun s hs => (hsome s).1 (ho.returned s hs),
      ho.notEarly, ho.prompt⟩
  · exact ⟨ho.noUnderflow, fun v hv => ho.first v (hfirst.symm.trans hv),
      fun hv => ho.timesOut (hnone.1 hv), fun s hs => (hsome s).2 (ho.returned s hs),
      ho.notEarly, ho.prompt⟩

theorem honours_timeout_iff : Honours (start.toNat + timeoutMillis) swapId us
        ⟨.error (.timeout swapId), (deadlineOf start timeoutMillis).toNat, false⟩ ↔
      start.toNat + timeoutMillis < 2 ^ 64 ∧
        ∀ u ∈ us, u.id = swapId → start.toNat + timeoutMillis ≤ u.time := by
  refine ⟨fun ho => ⟨le_deadlineOf_iff.1 (ho.notEarly rfl), ?_⟩, ?_⟩
  · rw [← firstBefore_eq_none_iff]
    cases hfirst : firstBefore (start.toNat + timeoutMillis) swapId us with
    | none => rfl
    | some u => cases ho.first u hfirst
  · rintro ⟨hfits, hlate⟩
    refine ⟨rfl, ?_, fun _ => rfl, ?_, fun _ => le_deadlineOf_iff.2 hfits, toNat_deadlineOf_le⟩
    · intro u hu
      rw [firstBefore_eq_none_iff.2 hlate] at hu
      cases hu
    · intro s hs
      cases hs

theorem honours_ok {u : Broadcast} {time : Nat} (hid : u.id = swapId)
    (htime : time ≤ (deadlineOf start timeoutMillis).toNat) (hu : u.time ≤ time)
    (hfirst : u.time < start.toNat + timeoutMillis ∨
      ∀ v ∈ u :: us, v.id = swapId → start.toNat + timeoutMillis ≤ v.time) :
    Honours (start.toNat + timeoutMillis) swapId (u :: us) ⟨.ok u.update, time, false⟩ := by
  have hle : time ≤ start.toNat + timeoutMillis := htime.trans toNat_deadlineOf_le
  refine ⟨rfl, ?_, ?_, ?_, ?_, hle⟩
  · intro v hv
    obtain hbefore | hlate := hfirst
    · rw [firstBefore, List.find?_cons_of_pos (by simp [hid, hbefore])] at hv
      cases hv
      rfl
    · rw [firstBefore_eq_none_iff.2 hlate] at hv
      cases hv
  · intro hnone
    have hlate := hnone u List.mem_cons_self hid
    omega
  · intro s hs
    cases hs
    exact ⟨u, List.mem_cons_self, hid, hu.trans hle, rfl⟩
  · intro hs
    cases hs

end Honours

/-! ## One turn -/

section Turn

variable {deadline : UInt64} {swapId : String} {u : Broadcast} {rest : List Received}
  {clock : Nat → UInt64} {pick : Nat → Bool}

theorem underflowed_of_late {received : List Received} (h : deadline < clock 0) :
    (waitLoop deadline swapId received clock pick).underflowed = true := by
  cases received with
  | nil => exact decide_eq_true h
  | cons r rest =>
    rw [waitLoop]
    dsimp only
    split
    · exact decide_eq_true h
    · split
      · exact decide_eq_true h
      · split
        · simp [h]
        · exact decide_eq_true h

theorem waitLoop_nil (h : clock 0 ≤ deadline) : waitLoop deadline swapId [] clock pick =
      ⟨.error (.timeout swapId), deadline.toNat, false⟩ := by
  rw [waitLoop, sleepEnds_eq h, decide_eq_false (UInt64.not_lt.2 h)]

/-- The sleep is over before the message is there, or at the same time and is picked. -/
def SleepWins (deadline : UInt64) (u : Broadcast) (now : UInt64) (pick : Bool) : Prop :=
  deadline.toNat < max u.time now.toNat ∨ deadline.toNat = max u.time now.toNat ∧ pick = false

instance (now : UInt64) (pick : Bool) : Decidable (SleepWins deadline u now pick) :=
  inferInstanceAs (Decidable (_ ∨ _))

theorem sleepWins_false (now : UInt64) :
    SleepWins deadline u now false ↔ deadline.toNat ≤ max u.time now.toNat := by
  simp only [SleepWins, and_true]
  omega

theorem sleepWins_true (now : UInt64) :
    SleepWins deadline u now true ↔ deadline.toNat < max u.time now.toNat := by
  simp [SleepWins]

/-- The first tie is decided one way, the others as before. -/
def pickFirst (b : Bool) (pick : Nat → Bool) : Nat → Bool
  | 0 => b
  | k + 1 => pick k

/-- **A turn.** One that begins by the deadline times out, goes on or returns. -/
theorem waitLoop_received (h : clock 0 ≤ deadline) :
    waitLoop deadline swapId (u.received :: rest) clock pick =
      if SleepWins deadline u (clock 0) (pick 0) then
        ⟨.error (.timeout swapId), deadline.toNat, false⟩
      else if u.id ≠ swapId then
        waitLoop deadline swapId rest (fun k => clock (k + 1)) fun k => pick (k + 1)
      else ⟨.ok u.update, max u.time (clock 0).toNat, false⟩ := by
  have hno : decide (deadline < clock 0) = false := decide_eq_false (UInt64.not_lt.2 h)
  simp only [waitLoop, Broadcast.received, hno, sleepEnds_eq h, Bool.false_or]
  exact if_congr Iff.rfl rfl rfl

end Turn

/-- **Deadlines.** Whichever way ties are decided, a call without polling honours its deadline,
exactly if the clock and the messages leave it no turn that goes wrong. -/
theorem honours_iff (start : UInt64) (timeoutMillis : Nat) (swapId : String)
    (us : List Broadcast) (clock : Nat → UInt64) :
    (∀ pick, Honours (start.toNat + timeoutMillis) swapId us
      (nextStatus (us.map (·.received)) start clock pick timeoutMillis swapId false)) ↔
      Safe start timeoutMillis swapId us clock := by
  unfold nextStatus
  simp only [Bool.false_eq_true, if_false]
  -- by induction on the messages: each turn takes one, or is the last
  induction us generalizing clock with
  | nil =>
    by_cases hlate : deadlineOf start timeoutMillis < clock 0
    · refine iff_of_false (fun h => ?_) fun h => UInt64.not_lt.2 h.1 hlate
      cases (underflowed_of_late hlate).symm.trans (h fun _ => true).noUnderflow
    · have hle : clock 0 ≤ deadlineOf start timeoutMillis := UInt64.not_lt.1 hlate
      simp only [List.map_nil, waitLoop_nil hle, honours_timeout_iff, Safe, hle, true_and]
      simp
  | cons u us ih =>
    by_cases hlate : deadlineOf start timeoutMillis < clock 0
    · refine iff_of_false (fun h => ?_) fun h => UInt64.not_lt.2 h.1 hlate
      cases (underflowed_of_late hlate).symm.trans (h fun _ => true).noUnderflow
    · have hle : clock 0 ≤ deadlineOf start timeoutMillis := UInt64.not_lt.1 hlate
      have hdle : (deadlineOf start timeoutMillis).toNat ≤ start.toNat + timeoutMillis :=
        toNat_deadlineOf_le
      have hnow : (clock 0).toNat ≤ (deadlineOf start timeoutMillis).toNat :=
        UInt64.le_iff_toNat_le.1 hle
      have hmax : clock 0 = deadlineOf start timeoutMillis ↔
          (clock 0).toNat = (deadlineOf start timeoutMillis).toNat := UInt64.toNat_inj.symm
      simp only [List.map_cons, waitLoop_received hle, Safe, hle, hmax, true_and]
      refine ⟨fun h => ⟨fun hsleep => ?_, fun hid htime => (ih _).1 fun pick => ?_⟩,
        fun h pick => ?_⟩
      · -- decide ties for the sleep
        have hwins : SleepWins (deadlineOf start timeoutMillis) u (clock 0) false := by
          rw [sleepWins_false]
          omega
        have htimeout := h fun _ => false
        rw [if_pos hwins] at htimeout
        exact honours_timeout_iff.1 htimeout
      · -- decide this tie for the message
        have hwins : ¬ SleepWins (deadlineOf start timeoutMillis) u (clock 0)
            (pickFirst true pick 0) := by
          rw [pickFirst, sleepWins_true]
          omega
        have hother := h (pickFirst true pick)
        rw [if_neg hwins, if_pos hid] at hother
        exact (honours_cons_other hid).1 hother
      · obtain ⟨hsleep, hnext⟩ := h
        by_cases hwins : SleepWins (deadlineOf start timeoutMillis) u (clock 0) (pick 0)
        · rw [if_pos hwins]
          refine honours_timeout_iff.2 (hsleep ?_)
          unfold SleepWins at hwins
          omega
        · rw [if_neg hwins]
          have hready : max u.time (clock 0).toNat ≤ (deadlineOf start timeoutMillis).toNat := by
            unfold SleepWins at hwins
            omega
          by_cases hid : u.id = swapId
          · rw [if_neg (not_not.2 hid)]
            refine honours_ok hid hready (le_max_left _ _) ?_
            by_cases hbefore : u.time < start.toNat + timeoutMillis
            · exact Or.inl hbefore
            · exact Or.inr (hsleep (by omega)).2
          · rw [if_pos hid]
            exact (honours_cons_other hid).2
              ((ih _).2 (hnext hid ((le_max_left _ _).trans hready)) _)

namespace Sample

def lateClock (k : Nat) : UInt64 := if k = 0 then 100 else 111

def other : Broadcast := ⟨"other", ⟨"swap.created", none⟩, 109⟩

def mine : Broadcast := ⟨"mine", ⟨"swap.expired", none⟩, 5000⟩

end Sample

open Sample in
/-- A clock that passes the deadline while an update of another swap is handled: the call does not
time out, and takes an update that comes 4890 milliseconds late. With no update it sleeps for
2⁶⁴ - 1 milliseconds. -/
theorem deadline_missed_after_other :
    (∀ a b, a ≤ b → lateClock a ≤ lateClock b) ∧ other.time ≤ (lateClock 1).toNat ∧ ∀ pick,
      nextStatus ([other, mine].map (·.received)) 100 lateClock pick 10 "mine" false =
          ⟨.ok mine.update, 5000, true⟩ ∧
        nextStatus ([other].map (·.received)) 100 lateClock pick 10 "mine" false =
          ⟨.error (.timeout "mine"), 111 + (2 ^ 64 - 1), true⟩ := by
  refine ⟨?_, by decide, fun pick => ⟨by rfl, by rfl⟩⟩
  intro a b hab
  unfold lateClock
  by_cases hb : b = 0
  · rw [if_pos (by omega), if_pos hb]
    decide
  · rw [if_neg hb]
    split <;> decide

end Swk.Boltz
