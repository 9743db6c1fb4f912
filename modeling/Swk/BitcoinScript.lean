import Mathlib.Data.List.Basic
import Mathlib.Tactic.Common
import Mathlib.Tactic.IntervalCases

/-!
# Bitcoin Script

A reference evaluator for the opcodes of a hash time lock, under the rules of a legacy P2SH spend,
and the encodings of pushes and numbers. A script is parsed into operations first: an encoding that
is cut short fails wherever it stands. Operations work on a stack of byte strings, and a stack of
conditions says which branch is taken.

Two rules carry the reasoning about a script:

* `parse_pushSlice`, `parse_pushInt`: what a builder pushes is parsed as that push;
* `run_ifElse`: a branch without further branches runs the side its condition selects.
-/

namespace Swk.BitcoinScript

open List

/-- A string of bytes: a script, or an item on the stack. -/
abbrev Item := List UInt8

/-! ## Numbers -/

/-- `build_scriptint`, the loop: little-endian, with the sign in the last byte's high bit. -/
def buildScriptintAbs (neg : Bool) (abs : Nat) : Item :=
  if 0xff < abs then .ofNat abs :: buildScriptintAbs neg (abs / 256)
  else if 0x80 ≤ abs then [.ofNat abs, if neg then 0x80 else 0]
  else [.ofNat (abs + if neg then 0x80 else 0)]
termination_by abs
decreasing_by omega

def buildScriptint (n : Int) : Item :=
  if n = 0 then [] else buildScriptintAbs (n < 0) n.natAbs

def magnitude : Item → Nat
  | [] => 0
  | [b] => b.toNat % 128
  | b :: rest => b.toNat + 256 * magnitude rest

def negative : Item → Bool
  | [] => false
  | [b] => 128 ≤ b.toNat
  | _ :: rest => negative rest

def minimal : Item → Bool
  | [] => true
  | [b] => b.toNat % 128 ≠ 0
  | [a, b] => b.toNat % 128 ≠ 0 || 128 ≤ a.toNat
  | _ :: rest => minimal rest

/-- `CScriptNum`: a number of at most `size` bytes, encoded minimally. -/
def scriptNum (size : Nat) (item : Item) : Option Int :=
  if item.length ≤ size && minimal item then
    some (if negative item then -magnitude item else magnitude item)
  else none

section Numbers

variable {abs : Nat}

theorem buildScriptintAbs_ne_nil (neg : Bool) (abs : Nat) : buildScriptintAbs neg abs ≠ [] := by
  unfold buildScriptintAbs
  split
  · simp
  · split <;> simp

variable {b : UInt8} {rest : Item}

theorem magnitude_cons (h : rest ≠ []) :
    magnitude (b :: rest) = b.toNat + 256 * magnitude rest := by
  cases rest with
  | nil => exact absurd rfl h
  | cons c rest => rfl

theorem negative_cons (h : rest ≠ []) : negative (b :: rest) = negative rest := by
  cases rest with
  | nil => exact absurd rfl h
  | cons c rest => rfl

theorem minimal_cons (hne : rest ≠ []) (h : minimal rest = true) : minimal (b :: rest) = true := by
  match rest with
  | [] => exact absurd rfl hne
  | [c] =>
    simp only [minimal, decide_eq_true_eq] at h
    simp [minimal, h]
  | c :: d :: rest => exact h

theorem magnitude_build : magnitude (buildScriptintAbs false abs) = abs := by
  induction abs using Nat.strongRecOn with
  | ind abs ih =>
    unfold buildScriptintAbs
    split
    · rw [magnitude_cons (buildScriptintAbs_ne_nil _ _), ih _ (by omega), UInt8.toNat_ofNat']
      omega
    · split
      · simp [magnitude]
        omega
      · simp [magnitude]
        omega

theorem negative_build : negative (buildScriptintAbs false abs) = false := by
  induction abs using Nat.strongRecOn with
  | ind abs ih =>
    unfold buildScriptintAbs
    split
    · rw [negative_cons (buildScriptintAbs_ne_nil _ _), ih _ (by omega)]
    · split
      · rfl
      · simp [negative]
        omega

theorem minimal_build (h : 0 < abs) : minimal (buildScriptintAbs false abs) = true := by
  induction abs using Nat.strongRecOn with
  | ind abs ih =>
    unfold buildScriptintAbs
    split
    · exact minimal_cons (buildScriptintAbs_ne_nil _ _) (ih _ (by omega) (by omega))
    · split
      · simp [minimal]
        omega
      · simp [minimal]
        omega

theorem length_build {size : Nat} (h : abs < 256 ^ size) (hsize : 0 < size) :
    (buildScriptintAbs false abs).length ≤ size + 1 := by
  induction size generalizing abs with
  | zero => omega
  | succ size ih =>
    unfold buildScriptintAbs
    split
    · have hlt : abs / 256 < 256 ^ size := by
        rw [Nat.div_lt_iff_lt_mul (by decide)]
        rwa [Nat.pow_succ] at h
      have hpos : 0 < size := by
        by_contra hzero
        obtain rfl : size = 0 := by omega
        omega
      rw [length_cons]
      exact Nat.succ_le_succ (ih hlt hpos)
    · split <;> simp

/-- Numbers are encoded differently. -/
theorem buildScriptint_injective {m n : Nat} (h : buildScriptint m = buildScriptint n) : m = n := by
  have hvalue : ∀ k : Nat, magnitude (buildScriptint k) = k := by
    intro k
    unfold buildScriptint
    by_cases hk : (k : Int) = 0
    · rw [if_pos hk]
      have : k = 0 := by omega
      rw [this]
      rfl
    · rw [if_neg hk, show decide ((k : Int) < 0) = false by simp, Int.natAbs_natCast]
      exact magnitude_build
  rw [← hvalue m, h, hvalue n]

/-- A number below `256 ^ size` is read back, with one byte to spare for the sign. -/
theorem scriptNum_buildScriptint {n size : Nat} (h : n < 256 ^ size) (hsize : 0 < size) :
    scriptNum (size + 1) (buildScriptint n) = some (n : Int) := by
  unfold buildScriptint
  by_cases hn : (n : Int) = 0
  · rw [if_pos hn, hn]
    rfl
  · have hpos : 0 < n := by omega
    rw [if_neg hn, show decide ((n : Int) < 0) = false by simp, Int.natAbs_natCast, scriptNum,
      minimal_build hpos, negative_build, magnitude_build]
    simp [length_build h hsize]

end Numbers

/-! ## Operations -/

inductive Op
  | push (item : Item)
  | opIf
  | opElse
  | opEndif
  | drop
  | size
  | equalverify
  | sha256
  | checksig
  | checklocktimeverify
  /-- An opcode that is not evaluated. -/
  | other (opcode : UInt8)
deriving DecidableEq

/-- A push of `n` bytes after `skip` bytes of length, and how much is read. -/
def readPush (rest : Item) (skip n : Nat) : Option (Op × Nat) :=
  if skip + n ≤ rest.length then some (.push ((rest.drop skip).take n), skip + n) else none

def readLength (rest : Item) (size : Nat) : Nat :=
  (rest.take size).foldr (fun b acc => b.toNat + 256 * acc) 0

/-- The operation that starts with a byte, and how much of the rest belongs to it. -/
def readOp (opcode : UInt8) (rest : Item) : Option (Op × Nat) :=
  if opcode < 0x4c then readPush rest 0 opcode.toNat
  else if opcode = 0x4c then readPush rest 1 (readLength rest 1)
  else if opcode = 0x4d then readPush rest 2 (readLength rest 2)
  else if opcode = 0x4e then readPush rest 4 (readLength rest 4)
  else if opcode = 0x4f then some (.push [0x81], 0)
  else if 0x51 ≤ opcode ∧ opcode ≤ 0x60 then some (.push [opcode - 0x50], 0)
  else if opcode = 0x63 then some (.opIf, 0)
  else if opcode = 0x67 then some (.opElse, 0)
  else if opcode = 0x68 then some (.opEndif, 0)
  else if opcode = 0x75 then some (.drop, 0)
  else if opcode = 0x82 then some (.size, 0)
  else if opcode = 0x88 then some (.equalverify, 0)
  else if opcode = 0xa8 then some (.sha256, 0)
  else if opcode = 0xac then some (.checksig, 0)
  else if opcode = 0xb1 then some (.checklocktimeverify, 0)
  else some (.other opcode, 0)

/-- The operations of a script, unless a push is cut short. -/
def parse (script : Item) : Option (List Op) :=
  match script with
  | [] => some []
  | opcode :: rest =>
    match readOp opcode rest with
    | none => none
    | some (op, n) => (parse (rest.drop n)).map (op :: ·)
termination_by script.length
decreasing_by
  rw [List.length_drop, List.length_cons]
  omega

/-! ## Building -/

/-- `Builder::push_slice`. Data of 2³² bytes or more makes it panic. -/
def pushSlice (data : Item) : Item :=
  let n := data.length
  (if n < 0x4c then [.ofNat n]
  else if n < 0x100 then [0x4c, .ofNat n]
  else if n < 0x10000 then [0x4d, .ofNat n, .ofNat (n / 0x100)]
  else [0x4e, .ofNat n, .ofNat (n / 0x100), .ofNat (n / 0x10000), .ofNat (n / 0x1000000)]) ++ data

def pushInt (n : Int) : Item :=
  if n = -1 then [0x4f]
  else if 1 ≤ n ∧ n ≤ 16 then [.ofNat (n + 0x50).toNat]
  else if n = 0 then [0x00]
  else pushSlice (buildScriptint n)

section Parsing

variable {rest : Item}

theorem parse_op {opcode : UInt8} {op : Op} (h : ∀ rest, readOp opcode rest = some (op, 0)) :
    parse (opcode :: rest) = (parse rest).map (op :: ·) := by
  rw [parse, h]
  rfl

@[simp] theorem parse_nil : parse [] = some [] := by rw [parse]

@[simp] theorem parse_opIf : parse (0x63 :: rest) = (parse rest).map (.opIf :: ·) :=
  parse_op fun _ => rfl

@[simp] theorem parse_opElse : parse (0x67 :: rest) = (parse rest).map (.opElse :: ·) :=
  parse_op fun _ => rfl

@[simp] theorem parse_opEndif : parse (0x68 :: rest) = (parse rest).map (.opEndif :: ·) :=
  parse_op fun _ => rfl

@[simp] theorem parse_drop : parse (0x75 :: rest) = (parse rest).map (.drop :: ·) :=
  parse_op fun _ => rfl

@[simp] theorem parse_size : parse (0x82 :: rest) = (parse rest).map (.size :: ·) :=
  parse_op fun _ => rfl

@[simp] theorem parse_equalverify : parse (0x88 :: rest) = (parse rest).map (.equalverify :: ·) :=
  parse_op fun _ => rfl

@[simp] theorem parse_sha256 : parse (0xa8 :: rest) = (parse rest).map (.sha256 :: ·) :=
  parse_op fun _ => rfl

@[simp] theorem parse_checksig : parse (0xac :: rest) = (parse rest).map (.checksig :: ·) :=
  parse_op fun _ => rfl

@[simp] theorem parse_checklocktimeverify :
    parse (0xb1 :: rest) = (parse rest).map (.checklocktimeverify :: ·) :=
  parse_op fun _ => rfl

variable {data : Item} {n : Nat}

theorem readPush_append {l : Item} (hn : n = data.length) :
    readPush (l ++ data ++ rest) l.length n = some (.push data, l.length + data.length) := by
  subst hn
  unfold readPush
  rw [if_pos (by simp), append_assoc, drop_left, take_left]

theorem parse_push {opcode : UInt8} {l : Item} (hn : n = data.length)
    (h : readOp opcode (l ++ data ++ rest) = readPush (l ++ data ++ rest) l.length n) :
    parse (opcode :: (l ++ data ++ rest)) = (parse rest).map (.push data :: ·) := by
  rw [parse, h, readPush_append hn]
  dsimp only
  rw [← length_append, drop_left]

/-- **What is pushed is parsed as pushed.** -/
theorem parse_pushSlice (h : data.length < 2 ^ 32) :
    parse (pushSlice data ++ rest) = (parse rest).map (.push data :: ·) := by
  unfold pushSlice
  dsimp only
  by_cases hshort : data.length < 0x4c
  · rw [if_pos hshort]
    refine parse_push (l := []) (n := data.length) rfl ?_
    have hlt : UInt8.ofNat data.length < 0x4c := by
      rw [UInt8.lt_iff_toNat_lt, UInt8.toNat_ofNat']
      exact Nat.lt_of_le_of_lt (Nat.mod_le _ _) hshort
    rw [readOp, if_pos hlt, UInt8.toNat_ofNat', Nat.mod_eq_of_lt (by omega)]
    rfl
  · rw [if_neg hshort]
    by_cases hone : data.length < 0x100
    · rw [if_pos hone]
      refine parse_push (l := [.ofNat data.length]) (n := data.length) rfl ?_
      have hlength : readLength ([UInt8.ofNat data.length] ++ data ++ rest) 1 = data.length := by
        simp [readLength]
        omega
      simp only [readOp, hlength]
      rfl
    · rw [if_neg hone]
      by_cases htwo : data.length < 0x10000
      · rw [if_pos htwo]
        refine parse_push (l := [.ofNat data.length, .ofNat (data.length / 0x100)])
          (n := data.length) rfl ?_
        have hlength : readLength ([UInt8.ofNat data.length,
            UInt8.ofNat (data.length / 0x100)] ++ data ++ rest) 2 = data.length := by
          simp [readLength]
          omega
        simp only [readOp, hlength]
        rfl
      · rw [if_neg htwo]
        refine parse_push (l := [.ofNat data.length, .ofNat (data.length / 0x100),
          .ofNat (data.length / 0x10000), .ofNat (data.length / 0x1000000)])
          (n := data.length) rfl ?_
        have hlength : readLength ([UInt8.ofNat data.length, UInt8.ofNat (data.length / 0x100),
            UInt8.ofNat (data.length / 0x10000), UInt8.ofNat (data.length / 0x1000000)] ++
              data ++ rest) 4 = data.length := by
          simp [readLength]
          omega
        simp only [readOp, hlength]
        rfl

theorem length_pushSlice (data : Item) : (pushSlice data).length ≤ data.length + 5 := by
  unfold pushSlice
  dsimp only
  rw [length_append, Nat.add_comm]
  refine Nat.add_le_add_left ?_ _
  split
  · simp
  · split
    · simp
    · split <;> simp

theorem buildScriptint_small (hpos : 1 ≤ n) (hle : n ≤ 16) : buildScriptint n = [.ofNat n] := by
  unfold buildScriptint
  rw [if_neg (by omega), show decide ((n : Int) < 0) = false by simp, Int.natAbs_natCast,
    buildScriptintAbs, if_neg (by omega), if_neg (by omega)]
  simp

theorem length_buildScriptint (h : n < 2 ^ 32) : (buildScriptint n).length ≤ 5 := by
  unfold buildScriptint
  split
  · simp
  · rw [show decide ((n : Int) < 0) = false by simp, Int.natAbs_natCast]
    have h256 : n < 256 ^ 4 := h
    exact length_build h256 (by decide)

theorem length_pushInt (h : n < 2 ^ 32) : (pushInt n).length ≤ 10 := by
  unfold pushInt
  split
  · simp
  · split
    · simp
    · split
      · simp
      · have hpush := length_pushSlice (buildScriptint n)
        have hint := length_buildScriptint h
        omega

/-- **What is pushed as a number is parsed as that number**, small ones from an opcode of their
own. -/
theorem parse_pushInt (h : n < 2 ^ 32) :
    parse (pushInt n ++ rest) = (parse rest).map (.push (buildScriptint n) :: ·) := by
  unfold pushInt
  rw [if_neg (by omega)]
  by_cases hsmall : 1 ≤ (n : Int) ∧ (n : Int) ≤ 16
  · have hpos : 1 ≤ n := by omega
    have hle : n ≤ 16 := by omega
    rw [if_pos hsmall, buildScriptint_small hpos hle]
    refine parse_op fun rest => ?_
    interval_cases n <;> rfl
  · rw [if_neg hsmall]
    by_cases hzero : (n : Int) = 0
    · rw [if_pos hzero, hzero]
      have hempty : parse (pushSlice [] ++ rest) = (parse rest).map (.push [] :: ·) :=
        parse_pushSlice (Nat.two_pow_pos 32)
      exact hempty
    · rw [if_neg hzero]
      exact parse_pushSlice (by have := length_buildScriptint h; omega)

end Parsing

/-! ## Evaluation -/

/-- What a script can look at: hashing, signatures of the spending transaction for this script, and
the time lock of the input. -/
structure Context where
  sha256 : Item → Item
  checkSig : Item → Item → Bool
  lockTime : UInt32
  sequence : UInt32

/-- Below this, a lock time is a height, from here on a time. -/
def lockTimeThreshold : Int := 500000000

/-- A lock time is of the kind of another, and reached. -/
def Context.LockReached (ctx : Context) (n : Int) : Prop :=
  ((ctx.lockTime.toNat : Int) < lockTimeThreshold ↔ n < lockTimeThreshold) ∧
    n ≤ ctx.lockTime.toNat ∧ ctx.sequence ≠ 0xffffffff

instance (ctx : Context) (n : Int) : Decidable (ctx.LockReached n) := by
  unfold Context.LockReached
  infer_instance

/-- Whether an item counts as true: some byte is not zero, a sign bit apart. -/
def truthy : Item → Bool
  | [] => false
  | [b] => b ≠ 0 && b ≠ 0x80
  | b :: rest => b ≠ 0 || truthy rest

/-- What an operation other than a branch does to the stack, its top first. -/
def exec (ctx : Context) (op : Op) (stack : List Item) : Option (List Item) :=
  match op, stack with
  | .push item, stack => some (item :: stack)
  | .drop, _ :: stack => some stack
  | .size, a :: stack => some (buildScriptint a.length :: a :: stack)
  | .equalverify, a :: b :: stack => if a = b then some stack else none
  | .sha256, a :: stack => some (ctx.sha256 a :: stack)
  | .checksig, key :: sig :: stack =>
    some ((if ctx.checkSig sig key then [1] else []) :: stack)
  | .checklocktimeverify, a :: stack =>
    match scriptNum 5 a with
    | some n => if 0 ≤ n ∧ ctx.LockReached n then some (a :: stack) else none
    | none => none
  | _, _ => none

section Exec

variable (ctx : Context) (a b : Item) (stack : List Item)

@[simp] theorem exec_push : exec ctx (.push a) stack = some (a :: stack) := rfl

@[simp] theorem exec_drop : exec ctx .drop (a :: stack) = some stack := rfl

@[simp] theorem exec_size :
    exec ctx .size (a :: stack) = some (buildScriptint a.length :: a :: stack) := rfl

@[simp] theorem exec_size_nil : exec ctx .size [] = none := rfl

@[simp] theorem exec_equalverify :
    exec ctx .equalverify (a :: b :: stack) = if a = b then some stack else none := rfl

@[simp] theorem exec_sha256 : exec ctx .sha256 (a :: stack) = some (ctx.sha256 a :: stack) := rfl

@[simp] theorem exec_checksig : exec ctx .checksig (a :: b :: stack) =
      some ((if ctx.checkSig b a then [1] else []) :: stack) := rfl

@[simp] theorem exec_checksig_singleton : exec ctx .checksig [a] = none := rfl

theorem exec_checklocktimeverify {a : Item} {n : Nat} (h : scriptNum 5 a = some (n : Int)) :
    exec ctx .checklocktimeverify (a :: stack) =
      if ctx.LockReached n then some (a :: stack) else none := by
  simp [exec, h]

end Exec

/-- The stack and the conditions of the branches around. -/
structure Machine where
  stack : List Item
  conditions : List Bool

/-- One operation. Branches are followed even where nothing is executed. -/
def step (ctx : Context) (m : Machine) (op : Op) : Option Machine :=
  match op with
  | .opIf =>
    if m.conditions.all id then
      match m.stack with
      | a :: stack => some ⟨stack, truthy a :: m.conditions⟩
      | [] => none
    else some ⟨m.stack, false :: m.conditions⟩
  | .opElse =>
    match m.conditions with
    | c :: conditions => some ⟨m.stack, (!c) :: conditions⟩
    | [] => none
  | .opEndif =>
    match m.conditions with
    | _ :: conditions => some ⟨m.stack, conditions⟩
    | [] => none
  | op =>
    if m.conditions.all id then (exec ctx op m.stack).map (⟨·, m.conditions⟩) else some m

/-- A script leaves a true item on top of the stack it is run on. -/
def accepts (ctx : Context) (script : Item) (stack : List Item) : Bool :=
  match parse script with
  | none => false
  | some ops =>
    match ops.foldlM (step ctx) ⟨stack, []⟩ with
    | some ⟨top :: _, []⟩ => truthy top
    | _ => false

def Op.Straight (op : Op) : Prop := op ≠ .opIf ∧ op ≠ .opElse ∧ op ≠ .opEndif

instance (op : Op) : Decidable op.Straight := by
  unfold Op.Straight
  infer_instance

section Running

variable {ctx : Context} {ops : List Op} {stack : List Item} {conditions : List Bool}

theorem step_straight {op : Op} (h : op.Straight) (m : Machine) : step ctx m op =
      if m.conditions.all id then (exec ctx op m.stack).map (⟨·, m.conditions⟩) else some m := by
  cases op with
  | opIf => exact absurd rfl h.1
  | opElse => exact absurd rfl h.2.1
  | opEndif => exact absurd rfl h.2.2
  | _ => rfl

theorem run_active (h : ∀ op ∈ ops, op.Straight) (hall : conditions.all id = true) :
    ops.foldlM (step ctx) ⟨stack, conditions⟩ =
      (ops.foldlM (fun s op => exec ctx op s) stack).map (⟨·, conditions⟩) := by
  induction ops generalizing stack with
  | nil => rfl
  | cons op ops ih =>
    rw [forall_mem_cons] at h
    rw [foldlM_cons, foldlM_cons, step_straight h.1, if_pos hall]
    cases hexec : exec ctx op stack with
    | none => rfl
    | some stack' => exact ih h.2

theorem run_idle (h : ∀ op ∈ ops, op.Straight) (hall : conditions.all id = false) :
    ops.foldlM (step ctx) ⟨stack, conditions⟩ = some ⟨stack, conditions⟩ := by
  induction ops with
  | nil => rfl
  | cons op ops ih =>
    rw [forall_mem_cons] at h
    rw [foldlM_cons, step_straight h.1, hall, if_neg Bool.false_ne_true]
    exact ih h.2

/-- **A branch runs the side that its condition selects.** -/
theorem run_ifElse {thens elses : List Op} (hthens : ∀ op ∈ thens, op.Straight)
    (helses : ∀ op ∈ elses, op.Straight) (a : Item) :
    (Op.opIf :: thens ++ Op.opElse :: elses ++ [Op.opEndif]).foldlM (step ctx) ⟨a :: stack, []⟩ =
      ((if truthy a then thens else elses).foldlM (fun s op => exec ctx op s) stack).map
        (⟨·, []⟩) := by
  rw [cons_append, cons_append, foldlM_cons]
  have hif : step ctx ⟨a :: stack, []⟩ .opIf = some ⟨stack, [truthy a]⟩ := rfl
  rw [hif, append_assoc]
  show (thens ++ (Op.opElse :: elses ++ [Op.opEndif])).foldlM (step ctx) ⟨stack, [truthy a]⟩ = _
  rw [foldlM_append]
  cases hcond : truthy a with
  | true =>
    rw [run_active hthens rfl, if_pos rfl]
    cases hthen : thens.foldlM (fun s op => exec ctx op s) stack with
    | none => rfl
    | some stack' =>
      show (Op.opElse :: elses ++ [Op.opEndif]).foldlM (step ctx) ⟨stack', [true]⟩ = _
      rw [cons_append, foldlM_cons]
      show (elses ++ [Op.opEndif]).foldlM (step ctx) ⟨stack', [false]⟩ = _
      rw [foldlM_append, run_idle helses rfl]
      rfl
  | false =>
    rw [run_idle hthens rfl, if_neg Bool.false_ne_true]
    show (Op.opElse :: elses ++ [Op.opEndif]).foldlM (step ctx) ⟨stack, [false]⟩ = _
    rw [cons_append, foldlM_cons]
    show (elses ++ [Op.opEndif]).foldlM (step ctx) ⟨stack, [true]⟩ = _
    rw [foldlM_append, run_active helses rfl]
    cases helse : elses.foldlM (fun s op => exec ctx op s) stack with
    | none => rfl
    | some stack' => rfl

/-- A script that is one branch needs an item to select the side. -/
theorem accepts_ifElse {script : Item} {thens elses : List Op}
    (hparse : parse script = some (.opIf :: thens ++ .opElse :: elses ++ [.opEndif]))
    (hthens : ∀ op ∈ thens, op.Straight) (helses : ∀ op ∈ elses, op.Straight) :
    accepts ctx script stack = true ↔ ∃ a rest, stack = a :: rest ∧ ∃ top rest',
      (if truthy a then thens else elses).foldlM (fun s op => exec ctx op s) rest =
        some (top :: rest') ∧ truthy top = true := by
  unfold accepts
  rw [hparse]
  cases stack with
  | nil => simp [foldlM_cons, step]
  | cons a rest =>
    simp only
    rw [run_ifElse hthens helses]
    cases hrun : (if truthy a then thens else elses).foldlM (fun s op => exec ctx op s) rest with
    | none => simp [hrun]
    | some stack' =>
      cases stack' with
      | nil => simp [hrun]
      | cons top rest' => simp [hrun]

end Running

/-! ## Spending from a script hash -/

def Op.item : Op → Option Item
  | .push item => some item
  | _ => none

/-- The items a script that only pushes leaves, its last push first. -/
def pushed (script : Item) : Option (List Item) :=
  match parse script with
  | none => none
  | some ops => (ops.mapM Op.item).map List.reverse

/-- A P2SH spend: the input's script pushes the redeem script last, which accepts what was pushed
before it. -/
def spends (ctx : Context) (redeem scriptSig : Item) : Bool :=
  match pushed scriptSig with
  | some (top :: stack) => top = redeem && accepts ctx redeem stack
  | _ => false

theorem mapM_item_push (items : List Item) : (items.map Op.push).mapM Op.item = some items := by
  induction items with
  | nil => rfl
  | cons item items ih =>
    rw [map_cons, mapM_cons, ih]
    rfl

theorem pushed_of_parse {script : Item} {items : List Item}
    (h : parse script = some (items.map .push)) : pushed script = some items.reverse := by
  unfold pushed
  rw [h]
  dsimp only
  rw [mapM_item_push]
  rfl

/-- A script that pushes some items and then the redeem script runs that on the items. -/
theorem spends_of_parse {ctx : Context} {redeem scriptSig : Item} {items : List Item}
    (h : parse scriptSig = some ((items ++ [redeem]).map .push)) :
    spends ctx redeem scriptSig = accepts ctx redeem items.reverse := by
  unfold spends
  rw [pushed_of_parse h]
  simp

end Swk.BitcoinScript
