import Mathlib.Data.List.Forall2
import Mathlib.Tactic.Common

/-!
# Computations with state and errors

Code that mutates a state and may fail midway leaves the state as it was at the failure:
`EStateM`. A long function is taken apart at its binds: when the whole succeeds, so did every
part, each on the state the one before left.
-/

namespace Swk

open List

variable {ε σ α β : Type}

/-- Stop with an error unless a condition holds. -/
def ensureElse (ok : Bool) (e : ε) : EStateM ε σ Unit := if ok then pure () else throw e

def runIf (c : Bool) (m : EStateM ε σ Unit) : EStateM ε σ Unit := if c then m else pure ()

/-- Run a computation that cannot touch the state. -/
def liftExcept (x : Except ε α) : EStateM ε σ α := fun s =>
  match x with
  | .ok a => .ok a s
  | .error e => .error e s

variable {s s' : σ} {b : β} {x : Except ε α} {f : α → Except ε β} {u : Unit} {a : α} {l : List α}
  {r : List β}

/-- **A sequence succeeds when its parts do.** -/
theorem bind_ok_iff {x : EStateM ε σ α} {f : α → EStateM ε σ β} :
    (x >>= f) s = .ok b s' ↔ ∃ a s₁, x s = .ok a s₁ ∧ f a s₁ = .ok b s' := by
  show EStateM.bind x f s = .ok b s' ↔ _
  unfold EStateM.bind
  cases h : x s with
  | ok a s₁ =>
    constructor
    · intro hf
      exact ⟨a, s₁, rfl, hf⟩
    · rintro ⟨a', s₁', heq, hf⟩
      cases heq
      exact hf
  | error e s₁ => simp

theorem run_bind (x : EStateM ε σ α) (f : α → EStateM ε σ β) (s : σ) :
    (x >>= f) s = match x s with
      | .ok a s => f a s
      | .error e s => .error e s := rfl

theorem run_tryCatch (x : EStateM ε σ α) (f : ε → EStateM ε σ α) (s : σ) :
    tryCatch x f s = match x s with
      | .ok a s => .ok a s
      | .error e s => f e s := by
  show EStateM.tryCatch x f s = _
  unfold EStateM.tryCatch
  cases x s <;> rfl

theorem run_ite (c : Prop) [Decidable c] (x y : EStateM ε σ α) (s : σ) :
    (if c then x else y) s = if c then x s else y s := by
  split <;> rfl

theorem run_throw (e : ε) (s : σ) : (throw e : EStateM ε σ α) s = .error e s := rfl

theorem run_pure (a : α) (s : σ) : (pure a : EStateM ε σ α) s = .ok a s := rfl

theorem run_get (s : σ) : (get : EStateM ε σ σ) s = .ok s s := rfl

theorem except_bind_ok_iff : (x >>= f) = .ok b ↔ ∃ a, x = .ok a ∧ f a = .ok b := by
  cases x with
  | ok a => simp [bind, Except.bind]
  | error e => simp [bind, Except.bind]

theorem except_ok_bind (a : α) (f : α → Except ε β) : (Except.ok a >>= f) = f a := rfl

theorem except_error_bind (e : ε) (f : α → Except ε β) : (Except.error e >>= f) = .error e := rfl

theorem except_throw (e : ε) : (throw e : Except ε α) = .error e := rfl

/-- Go on if a condition holds. -/
def require (ok : Bool) (e : ε) : Except ε Unit := if ok then .ok () else .error e

def okOr (x : Option α) (e : ε) : Except ε α :=
  match x with
  | some a => .ok a
  | none => .error e

variable {ok : Bool} {e e' : ε}

theorem require_ok_iff : require ok e = .ok u ↔ ok = true := by
  unfold require
  cases ok <;> simp

theorem okOr_ok_iff {x : Option α} : okOr x e = .ok a ↔ x = some a := by
  unfold okOr
  cases x <;> simp

theorem mapError_ok_iff {δ : Type} {x : Except δ α} {f : δ → ε} :
    x.mapError f = .ok a ↔ x = .ok a := by
  cases x <;> simp [Except.mapError]

theorem map_ok_iff {f : α → β} : x.map f = .ok b ↔ ∃ a, x = .ok a ∧ f a = b := by
  cases x <;> simp [Except.map]

/-- A fallible map succeeds when it does on every element. -/
theorem mapM_ok_forall₂ (h : l.mapM f = .ok r) : List.Forall₂ (fun a b => f a = .ok b) l r := by
  induction l generalizing r with
  | nil =>
    cases h
    exact .nil
  | cons a l ih =>
    rw [mapM_cons] at h
    obtain ⟨b, hb, h⟩ := except_bind_ok_iff.1 h
    obtain ⟨rest, hrest, h⟩ := except_bind_ok_iff.1 h
    cases h
    exact .cons hb (ih hrest)

theorem mapM_ok_of_forall₂ (h : List.Forall₂ (fun a b => f a = .ok b) l r) : l.mapM f = .ok r := by
  induction h with
  | nil => rfl
  | cons hb _ ih =>
    rw [mapM_cons, hb, ih]
    rfl

theorem mapM_ok_forall (h : l.mapM f = .ok r) : ∀ a ∈ l, ∃ b, f a = .ok b :=
  ((forall₂_and_left l r).1 ((mapM_ok_forall₂ h).imp fun _ b hb => ⟨⟨b, hb⟩, hb⟩)).1

/-- A loop goes through if every step does. -/
theorem mapM_ok_of_forall (h : ∀ a ∈ l, ∃ b, f a = .ok b) : ∃ r, l.mapM f = .ok r := by
  induction l with
  | nil => exact ⟨[], rfl⟩
  | cons a l ih =>
    obtain ⟨b, hb⟩ := h a (mem_cons_self ..)
    obtain ⟨r, hr⟩ := ih fun a' ha' => h a' (mem_cons_of_mem a ha')
    refine ⟨b :: r, ?_⟩
    rw [mapM_cons, hb, hr]
    rfl

/-- A map of checks: it succeeds if every check does, with the values they let through. -/
theorem mapM_ok_iff {P : α → Prop} {g : α → β} (h : ∀ a ∈ l, ∀ b, f a = .ok b ↔ P a ∧ b = g a) :
    l.mapM f = .ok r ↔ (∀ a ∈ l, P a) ∧ r = l.map g := by
  constructor
  · intro hr
    have hall := mapM_ok_forall₂ hr
    clear hr
    induction hall with
    | nil => exact ⟨fun a ha => absurd ha not_mem_nil, rfl⟩
    | cons hb _ ih =>
      obtain ⟨hP, rfl⟩ := (h _ mem_cons_self _).1 hb
      obtain ⟨hrest, rfl⟩ := ih fun a ha => h a (mem_cons_of_mem _ ha)
      exact ⟨forall_mem_cons.2 ⟨hP, hrest⟩, rfl⟩
  · rintro ⟨hP, rfl⟩
    apply mapM_ok_of_forall₂
    rw [forall₂_map_right_iff, forall₂_same]
    exact fun a ha => (h a ha _).2 ⟨hP a ha, rfl⟩

/-- A loop whose steps fail only by a check: the checks come first. -/
theorem foldlM_eq_map {σ : Type} {f : σ → α → Except ε σ} {check : α → Except ε Unit}
    {g : σ → α → σ} (h : ∀ s a, f s a = (check a).map fun _ => g s a) (l : List α) (s : σ) :
    l.foldlM f s = (l.mapM check).map fun _ => l.foldl g s := by
  induction l generalizing s with
  | nil => rfl
  | cons a l ih =>
    rw [foldlM_cons, mapM_cons, h]
    cases check a with
    | error e => rfl
    | ok u =>
      simp only [Except.map, except_ok_bind, ih]
      cases l.mapM check <;> rfl

/-- What the results are made from can be read off, if the function keeps it. -/
theorem mapM_ok_map {g : β → α} (hg : ∀ a b, f a = .ok b → g b = a)
    (h : l.mapM f = .ok r) : r.map g = l := by
  have hall := mapM_ok_forall₂ h
  clear h
  induction hall with
  | nil => rfl
  | cons hb _ ih => rw [map_cons, ih, hg _ _ hb]

theorem mapM_ok_mem (h : l.mapM f = .ok r) : ∀ b ∈ r, ∃ a ∈ l, f a = .ok b := by
  have hall := mapM_ok_forall₂ h
  clear h
  induction hall with
  | nil => simp
  | cons hb _ ih =>
    intro c hc
    rcases mem_cons.1 hc with rfl | hc
    · exact ⟨_, mem_cons_self, hb⟩
    · obtain ⟨a, ha, hfa⟩ := ih c hc
      exact ⟨a, mem_cons_of_mem _ ha, hfa⟩

/-- A fallible fold keeps what each of its steps keeps. -/
theorem foldlM_ok_inv {f : β → α → Except ε β} {motive : β → Prop} {r : β}
    (h : l.foldlM f b = .ok r) (hb : motive b)
    (hstep : ∀ b a b', motive b → f b a = .ok b' → motive b') : motive r := by
  induction l generalizing b with
  | nil =>
    cases h
    exact hb
  | cons a l ih =>
    rw [foldlM_cons] at h
    obtain ⟨b', hf, h⟩ := except_bind_ok_iff.1 h
    exact ih h (hstep b a b' hb hf)

theorem foldlM_ok_exists {f : β → α → Except ε β} (b : β)
    (h : ∀ b, ∀ a ∈ l, ∃ b', f b a = .ok b') : ∃ r, l.foldlM f b = .ok r := by
  induction l generalizing b with
  | nil => exact ⟨b, rfl⟩
  | cons a l ih =>
    obtain ⟨b', hb'⟩ := h b a (mem_cons_self ..)
    obtain ⟨r, hr⟩ := ih b' fun b a ha => h b a (mem_cons_of_mem _ ha)
    exact ⟨r, by rw [foldlM_cons, except_bind_ok_iff]; exact ⟨b', hb', hr⟩⟩

/-- A fold that keeps a relation between its state and what it has gone through. -/
theorem foldlM_ok_collect {γ : Type} {f : β → α → Except ε β} {g : α → List γ}
    {motive : List γ → β → Prop} {done : List γ} {r : β} (h : l.foldlM f b = .ok r)
    (hb : motive done b)
    (hstep : ∀ done b a b', motive done b → f b a = .ok b' → motive (done ++ g a) b') :
    motive (done ++ l.flatMap g) r := by
  induction l generalizing b done with
  | nil =>
    cases h
    simpa using hb
  | cons a l ih =>
    rw [foldlM_cons] at h
    obtain ⟨b', hf, h⟩ := except_bind_ok_iff.1 h
    simpa using ih h (hstep done b a b' hb hf)

theorem pure_ok_iff {b : α} : (pure a : EStateM ε σ α) s = .ok b s' ↔ a = b ∧ s = s' := by
  show EStateM.Result.ok a s = .ok b s' ↔ _
  simp

theorem get_ok_iff {a : σ} : (get : EStateM ε σ σ) s = .ok a s' ↔ s = a ∧ s = s' := by
  show EStateM.Result.ok s s = .ok a s' ↔ _
  simp

theorem throw_ok_iff : (throw e : EStateM ε σ α) s = .ok a s' ↔ False := by
  show EStateM.Result.error e s = .ok a s' ↔ _
  simp

theorem modify_ok_iff {f : σ → σ} : (modify f : EStateM ε σ Unit) s = .ok u s' ↔ f s = s' := by
  show EStateM.Result.ok () (f s) = .ok u s' ↔ _
  simp

theorem ensureElse_ok_iff :
    (ensureElse ok e : EStateM ε σ Unit) s = .ok u s' ↔ ok = true ∧ s = s' := by
  unfold ensureElse
  cases ok with
  | true => simpa using pure_ok_iff (ε := ε) (a := ()) (b := u)
  | false =>
    constructor
    · intro h
      have hfails : EStateM.Result.error e s = .ok u s' := h
      cases hfails
    · rintro ⟨h, -⟩
      exact absurd h (by simp)

theorem runIf_ok_iff {c : Bool} {m : EStateM ε σ Unit} :
    runIf c m s = .ok u s' ↔ (c = true ∧ m s = .ok () s') ∨ (c = false ∧ s = s') := by
  unfold runIf
  cases c with
  | true => simp
  | false => simpa using pure_ok_iff (ε := ε) (a := ()) (b := u)

theorem liftExcept_ok_iff : (liftExcept x : EStateM ε σ α) s = .ok a s' ↔ x = .ok a ∧ s = s' := by
  unfold liftExcept
  cases x with
  | ok b => simp
  | error e => simp

/-! A step that leaves the state, or sets it, and the rest. -/

section Steps

variable {f : α → EStateM ε σ β} {g : Unit → EStateM ε σ β} {s s' : σ} {b : β}

theorem liftExcept_bind_ok_iff {x : Except ε α} :
    (liftExcept x >>= f) s = .ok b s' ↔ ∃ a, x = .ok a ∧ f a s = .ok b s' := by
  simp [bind_ok_iff, liftExcept_ok_iff]

theorem ensureElse_bind_ok_iff {ok : Bool} {e : ε} :
    (ensureElse ok e >>= g) s = .ok b s' ↔ ok = true ∧ g () s = .ok b s' := by
  rw [bind_ok_iff]
  constructor
  · intro h
    obtain ⟨_, _, hensure, h⟩ := h
    obtain ⟨hok, rfl⟩ := ensureElse_ok_iff.1 hensure
    exact ⟨hok, h⟩
  · intro h
    exact ⟨(), s, ensureElse_ok_iff.2 ⟨h.1, rfl⟩, h.2⟩

theorem get_bind (f : σ → EStateM ε σ β) (s : σ) : (get >>= f) s = f s s := rfl

theorem modify_bind (h : σ → σ) (s : σ) : (modify h >>= g) s = g () (h s) := rfl

theorem get_bind_ok_iff {f : σ → EStateM ε σ β} :
    (get >>= f) s = .ok b s' ↔ f s s = .ok b s' := Iff.rfl

theorem set_bind_ok_iff {s₁ : σ} {g : PUnit → EStateM ε σ β} :
    (set s₁ >>= g) s = .ok b s' ↔ g () s₁ = .ok b s' := Iff.rfl

theorem modify_bind_ok_iff {h : σ → σ} :
    (modify h >>= g) s = .ok b s' ↔ g () (h s) = .ok b s' := Iff.rfl

end Steps

/-! ## Invariants -/

/-- A computation that succeeds keeps what holds of the state. -/
def Maintains (I : σ → Prop) (m : EStateM ε σ α) : Prop :=
  ∀ s a s', m s = .ok a s' → I s → I s'

namespace Maintains

variable {I : σ → Prop}

theorem pure (a : α) : Maintains I (pure a : EStateM ε σ α) := by
  intro s b s' h hs
  rw [← (pure_ok_iff.1 h).2]
  exact hs

theorem throw (e : ε) : Maintains I (throw e : EStateM ε σ α) := by
  intro s a s' h _
  exact absurd h fun h => throw_ok_iff.1 h

theorem get : Maintains I (get : EStateM ε σ σ) := by
  intro s a s' h hs
  rw [← (get_ok_iff.1 h).2]
  exact hs

theorem liftExcept (x : Except ε α) : Maintains I (liftExcept x : EStateM ε σ α) := by
  intro s a s' h hs
  rw [← (liftExcept_ok_iff.1 h).2]
  exact hs

theorem modify {f : σ → σ} (hf : ∀ s, I s → I (f s)) :
    Maintains I (modify f : EStateM ε σ Unit) := by
  intro s a s' h hs
  rw [← modify_ok_iff.1 h]
  exact hf s hs

theorem ensureElse (ok : Bool) (e : ε) : Maintains I (ensureElse ok e : EStateM ε σ Unit) := by
  intro s a s' h hs
  rw [← (ensureElse_ok_iff.1 h).2]
  exact hs

theorem bind {x : EStateM ε σ α} {f : α → EStateM ε σ β} (hx : Maintains I x)
    (hf : ∀ a, Maintains I (f a)) : Maintains I (x >>= f) := by
  intro s b s' h hs
  obtain ⟨a, s₁, hfirst, hsecond⟩ := bind_ok_iff.1 h
  exact hf a s₁ b s' hsecond (hx s a s₁ hfirst hs)

theorem ite {c : Prop} [Decidable c] {m m' : EStateM ε σ α} (hm : Maintains I m)
    (hm' : Maintains I m') : Maintains I (if c then m else m') := by
  split
  · exact hm
  · exact hm'

theorem foldlM {f : β → α → EStateM ε σ β} (hf : ∀ b a, Maintains I (f b a)) (l : List α) (b : β) :
    Maintains I (l.foldlM f b) := by
  induction l generalizing b with
  | nil => exact Maintains.pure b
  | cons a l ih =>
    rw [foldlM_cons]
    exact (hf b a).bind ih

end Maintains

/-! ## Failing computations -/

/-- **A sequence fails when one of its parts does.** -/
theorem bind_error_iff {x : EStateM ε σ α} {f : α → EStateM ε σ β} {s s' : σ} :
    (x >>= f) s = .error e s' ↔
      x s = .error e s' ∨ ∃ a s₁, x s = .ok a s₁ ∧ f a s₁ = .error e s' := by
  show EStateM.bind x f s = .error e s' ↔ _
  unfold EStateM.bind
  cases x s <;> simp

theorem ensureElse_error_iff {s s' : σ} :
    (ensureElse ok e : EStateM ε σ Unit) s = .error e' s' ↔ ok = false ∧ e = e' ∧ s = s' := by
  unfold ensureElse
  cases ok with
  | true => simp [pure, EStateM.pure]
  | false =>
    show EStateM.Result.error e s = .error e' s' ↔ _
    simp

theorem liftExcept_error_iff {x : Except ε α} {s s' : σ} :
    (liftExcept x : EStateM ε σ α) s = .error e s' ↔ x = .error e ∧ s = s' := by
  unfold liftExcept
  cases x <;> simp

theorem ensureElse_bind_error_iff {g : Unit → EStateM ε σ β} {s s' : σ} :
    (ensureElse ok e >>= g) s = .error e' s' ↔
      (ok = false ∧ e = e' ∧ s = s') ∨ ok = true ∧ g () s = .error e' s' := by
  rw [bind_error_iff, ensureElse_error_iff]
  simp [ensureElse_ok_iff, Unique.exists_iff]

theorem liftExcept_bind_error_iff {x : Except ε α} {f : α → EStateM ε σ β} {s s' : σ} :
    (liftExcept x >>= f) s = .error e s' ↔
      (x = .error e ∧ s = s') ∨ ∃ a, x = .ok a ∧ f a s = .error e s' := by
  simp [bind_error_iff, liftExcept_error_iff, liftExcept_ok_iff]

/-- A computation leaves a part of the state alone, whether it succeeds or fails. -/
structure Preserves {τ : Type} (part : σ → τ) (m : EStateM ε σ α) : Prop where
  ok : ∀ {s a s'}, m s = .ok a s' → part s' = part s
  error : ∀ {s e s'}, m s = .error e s' → part s' = part s

namespace Preserves

variable {τ : Type} {part : σ → τ}

theorem pure (a : α) : Preserves part (pure a : EStateM ε σ α) :=
  ⟨fun h => by rw [(pure_ok_iff.1 h).2], fun h => nomatch h⟩

theorem get : Preserves part (get : EStateM ε σ σ) :=
  ⟨fun h => by rw [(get_ok_iff.1 h).2], fun h => nomatch h⟩

theorem modify {f : σ → σ} (hf : ∀ s, part (f s) = part s) :
    Preserves part (modify f : EStateM ε σ Unit) :=
  ⟨fun h => by rw [← modify_ok_iff.1 h, hf], fun h => nomatch h⟩

theorem liftExcept (x : Except ε α) : Preserves part (liftExcept x : EStateM ε σ α) :=
  ⟨fun h => by rw [(liftExcept_ok_iff.1 h).2], fun h => by rw [(liftExcept_error_iff.1 h).2]⟩

/-- What is left alone includes what can be computed from it. -/
theorem comp {υ : Type} {x : EStateM ε σ α} (hx : Preserves part x) (f : τ → υ) :
    Preserves (fun s => f (part s)) x :=
  ⟨fun h => congrArg f (hx.ok h), fun h => congrArg f (hx.error h)⟩

theorem bind {x : EStateM ε σ α} {f : α → EStateM ε σ β} (hx : Preserves part x)
    (hf : ∀ a, Preserves part (f a)) : Preserves part (x >>= f) where
  ok h := by
    obtain ⟨a, s₁, hfirst, hsecond⟩ := bind_ok_iff.1 h
    exact ((hf a).ok hsecond).trans (hx.ok hfirst)
  error h := by
    rcases bind_error_iff.1 h with hfirst | ⟨a, s₁, hfirst, hsecond⟩
    · exact hx.error hfirst
    · exact ((hf a).error hsecond).trans (hx.ok hfirst)

end Preserves

end Swk
