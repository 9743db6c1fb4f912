import Mathlib.Logic.Function.Basic
import Mathlib.Tactic.Common

/-!
# Key-value stores

A store answers operations on keys, and may fail. It is specified by a map: `Step` says what an
operation may answer and how it may change the map. A write that failed may have been made or not,
and a *lossy* store may have lost the old value.

**Theorem (`Simulates.get_write`).** In a store that simulates a map, what is read is what was
written last, whatever happened to other keys in between.
-/

namespace Swk.KeyValue

open Function

variable {K V E S R : Type}

/-- To write `none` is to remove. -/
inductive Op (K V : Type)
  | get (key : K)
  | write (key : K) (value : Option V)

def Op.key : Op K V → K
  | .get k | .write k _ => k

/-- What a store answers, and its state afterwards. `R` is what the operation meets. -/
abbrev Store (K V E S R : Type) := R → Op K V → S → Except E (Option V) × S

/-- The state after a run, failures included. -/
def run (store : Store K V E S R) (ops : List (R × Op K V)) (s : S) : S :=
  ops.foldl (fun s op => (store op.1 op.2 s).2) s

variable [DecidableEq K]

/-- What an operation may answer on a map, and the map afterwards. -/
inductive Step (lossy : Bool) (m : K → Option V) :
    Op K V → Except E (Option V) → (K → Option V) → Prop
  | got (k) : Step lossy m (.get k) (.ok (m k)) m
  | wrote (k x) : Step lossy m (.write k x) (.ok none) (update m k x)
  | failed (op e) : Step lossy m op (.error e) m
  | wroteAnyway (k x e) : Step lossy m (.write k x) (.error e) (update m k x)
  | lost (h : lossy = true) (k x e) : Step lossy m (.write k x) (.error e) (update m k none)

/-- The store's operations on the keys it takes are those of the map it holds. -/
def Simulates (store : Store K V E S R) (lossy : Bool) (takes : K → Prop)
    (content : S → K → Option V) : Prop :=
  ∀ r op s, takes op.key →
    Step lossy (content s) op (store r op s).1 (content (store r op s).2)

variable {k : K} {lossy : Bool} {m m' : K → Option V} {op : Op K V} {a : Except E (Option V)}
  {store : Store K V E S R} {takes : K → Prop} {content : S → K → Option V}

/-- An operation changes no key but its own, and reading changes none. -/
theorem Step.other (h : Step lossy m op a m') (hk : op.key = k → op = .get k) : m' k = m k := by
  cases h with
  | got | failed => rfl
  | wrote | wroteAnyway | lost =>
    apply update_of_ne
    intro heq
    cases hk heq.symm

/-- A write that succeeds is made; one that fails leaves the old value, the new one or, in a lossy
store, none. -/
theorem Step.write_atomic {x : Option V} (h : Step lossy m (.write k x) a m') :
    ((∃ y, a = .ok y) → m' k = x) ∧ (m' k = x ∨ m' k = m k ∨ lossy = true ∧ m' k = none) ∧
      ∀ k', k' ≠ k → m' k' = m k' := by
  refine ⟨?_, ?_, fun k' hk => h.other fun heq => absurd heq.symm hk⟩
  · intro ⟨y, ha⟩
    subst ha
    cases h
    simp
  · cases h with
    | wrote | wroteAnyway => simp
    | failed => simp
    | lost hlossy => simp [hlossy]

theorem Simulates.other (h : Simulates store lossy takes content) {ops : List (R × Op K V)}
    (htakes : ∀ op ∈ ops, takes op.2.key) (hk : ∀ op ∈ ops, op.2.key = k → op.2 = .get k) (s : S) :
    content (run store ops s) k = content s k := by
  induction ops generalizing s with
  | nil => rfl
  | cons op ops ih =>
    rw [List.forall_mem_cons] at htakes hk
    exact (ih htakes.2 hk.2 _).trans ((h op.1 op.2 s htakes.1).other hk.1)

theorem Simulates.get_write (h : Simulates store lossy takes content) {ops : List (R × Op K V)}
    (htakes : ∀ op ∈ ops, takes op.2.key) (hk : ∀ op ∈ ops, op.2.key = k → op.2 = .get k)
    (hkey : takes k) {r r' : R} {x y z : Option V} {s : S}
    (hwrite : (store r (.write k x) s).1 = .ok z)
    (hget : (store r' (.get k) (run store ops (store r (.write k x) s).2)).1 = .ok y) :
    y = x := by
  have hstep := h r (.write k x) s hkey
  have hread := h r' (.get k) (run store ops (store r (.write k x) s).2) hkey
  have hother := h.other htakes hk (store r (.write k x) s).2
  rw [hwrite] at hstep
  rw [hget] at hread
  generalize content (store r (.write k x) s).2 = m at hstep hother
  generalize content (store r' (.get k) _).2 = m' at hread
  cases hstep
  cases hread
  rw [hother, update_self]

end Swk.KeyValue
