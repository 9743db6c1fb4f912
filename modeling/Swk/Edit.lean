import Mathlib.Logic.Basic

/-!
# Edits of one entry

An incremental update of a map does one of three things to an entry: take it out, put a value
there, or leave it alone. Taking out wins over putting in.

Two updates in sequence make two edits of each entry, `e₁` and then `e₂`. If the updates are
squashed into one, the entry is edited once, by the join of `e₂` with an edit `e` that stands for
the first update: it may differ from `e₁`, because the squashed update knows more than the first
one did. `join_eq_iff` says when the outcome is the same: the second edit must not put in what `e`
takes out, and where the second edit does nothing, `e` must do what `e₁` does.
-/

namespace Swk

/-- What happens to one entry of a map. -/
structure Edit (V : Type) where
  takes : Prop
  puts : V → Prop

namespace Edit

variable {V : Type} {e e₁ e₂ : Edit V} {x x₁ x₂ y : Option V}

/-- The edit turns the entry `x` into `y`. -/
structure Maps (e : Edit V) (x y : Option V) : Prop where
  takes : e.takes → y = none
  puts : ¬ e.takes → ∀ v, e.puts v → y = some v
  keeps : ¬ e.takes → (∀ v, ¬ e.puts v) → y = x

/-- Both edits at once. -/
def join (e e' : Edit V) : Edit V where
  takes := e.takes ∨ e'.takes
  puts := fun v => e.puts v ∨ e'.puts v

/-- The edit leaves the entry alone. -/
def Skips (e : Edit V) : Prop := ¬ e.takes ∧ ∀ v, ¬ e.puts v

/-- The second edit does not put in what the first takes out. -/
def NoRevival (e e₂ : Edit V) : Prop := ∀ v, e₂.puts v → ¬ e₂.takes → ¬ e.takes

/-- Knowing more makes no difference to the entry `x`: where only one of the edits takes it out,
it was not there and the other does not put it in; and where only `e` puts a value in, that value
was there. -/
structure Timely (x : Option V) (e₁ e : Edit V) : Prop where
  takesLate : e.takes → ¬ e₁.takes → x = none ∧ ∀ v, ¬ e₁.puts v
  takesEarly : e₁.takes → ¬ e.takes → x = none ∧ ∀ v, ¬ e.puts v
  putsLate : ¬ e.takes → ¬ e₁.takes → ∀ v, e.puts v → (∀ v', ¬ e₁.puts v') → x = some v

/-- An edit that skips an entry does not change it. -/
theorem Skips.maps (h : e.Skips) (hm : e.Maps x y) : y = x := hm.keeps h.1 h.2

theorem Maps.of_iff {e' : Edit V} (htakes : e.takes ↔ e'.takes) (hputs : ∀ v, e.puts v ↔ e'.puts v)
    (h : e.Maps x y) : e'.Maps x y := by
  refine ⟨fun ht => h.takes (htakes.2 ht), fun ht v hv => ?_, fun ht hv => ?_⟩
  · exact h.puts (fun hc => ht (htakes.1 hc)) v ((hputs v).2 hv)
  · exact h.keeps (fun hc => ht (htakes.1 hc)) fun v hc => hv v ((hputs v).1 hc)

/-- Two edits of which one puts in more have the same outcome exactly when the difference is
timely. -/
theorem maps_eq_iff (h₁ : e₁.Maps x x₁) (h : e.Maps x y) (hle : ∀ v, e₁.puts v → e.puts v) :
    y = x₁ ↔ Timely x e₁ e := by
  by_cases ht : e.takes
  · rw [h.takes ht]
    by_cases ht₁ : e₁.takes
    · rw [h₁.takes ht₁]
      exact ⟨fun _ => ⟨fun _ hc => absurd ht₁ hc, fun _ hc => absurd ht hc,
        fun hc => absurd ht hc⟩, fun _ => rfl⟩
    · refine ⟨fun heq => ⟨fun _ _ => ?_, fun hc => absurd hc ht₁, fun hc => absurd ht hc⟩, ?_⟩
      · have hputs (v : V) : ¬ e₁.puts v := by
          intro hv
          rw [h₁.puts ht₁ v hv] at heq
          exact absurd heq (by simp)
        exact ⟨by rw [← h₁.keeps ht₁ hputs, ← heq], hputs⟩
      · intro htimely
        obtain ⟨hx, hputs⟩ := htimely.takesLate ht ht₁
        rw [h₁.keeps ht₁ hputs, hx]
  · by_cases ht₁ : e₁.takes
    · rw [h₁.takes ht₁]
      refine ⟨fun heq => ⟨fun hc => absurd hc ht, fun _ _ => ?_, fun _ hc => absurd ht₁ hc⟩, ?_⟩
      · have hputs (v : V) : ¬ e.puts v := by
          intro hv
          rw [h.puts ht v hv] at heq
          exact absurd heq (by simp)
        exact ⟨by rw [← h.keeps ht hputs, heq], hputs⟩
      · intro htimely
        obtain ⟨hx, hputs⟩ := htimely.takesEarly ht₁ ht
        rw [h.keeps ht hputs, hx]
    · refine ⟨fun heq => ⟨fun hc => absurd hc ht, fun hc => absurd hc ht₁, ?_⟩, fun htimely => ?_⟩
      · intro _ _ v hv hnone
        rw [← h₁.keeps ht₁ hnone, ← heq, h.puts ht v hv]
      · by_cases hp₁ : ∃ v, e₁.puts v
        · obtain ⟨v, hv⟩ := hp₁
          rw [h₁.puts ht₁ v hv, h.puts ht v (hle v hv)]
        · have hnone₁ (v : V) : ¬ e₁.puts v := fun hv => hp₁ ⟨v, hv⟩
          rw [h₁.keeps ht₁ hnone₁]
          by_cases hp : ∃ v, e.puts v
          · obtain ⟨v, hv⟩ := hp
            rw [h.puts ht v hv, htimely.putsLate ht ht₁ v hv hnone₁]
          · exact h.keeps ht fun v hv => hp ⟨v, hv⟩

/-- **Squashing two edits.** The join has the outcome of the two edits in sequence exactly when
the second revives nothing and, where it does nothing, the first is timely. -/
theorem join_eq_iff (h₁ : e₁.Maps x x₁) (h₂ : e₂.Maps x₁ x₂) (h : (e.join e₂).Maps x y)
    (hle : ¬ e₂.takes → ∀ v, e₁.puts v → e.puts v) :
    y = x₂ ↔ NoRevival e e₂ ∧ (e₂.Skips → Timely x e₁ e) := by
  by_cases ht₂ : e₂.takes
  · -- both take the entry out
    rw [h.takes (.inr ht₂), h₂.takes ht₂]
    exact ⟨fun _ => ⟨fun _ _ hc => absurd ht₂ hc, fun hc => absurd ht₂ hc.1⟩, fun _ => rfl⟩
  · by_cases hp₂ : ∃ v, e₂.puts v
    · obtain ⟨v, hv⟩ := hp₂
      rw [h₂.puts ht₂ v hv]
      refine ⟨fun heq => ⟨fun _ _ _ ht => ?_, fun hc => absurd hv (hc.2 v)⟩, fun hno => ?_⟩
      · rw [h.takes (.inl ht)] at heq
        exact absurd heq (by simp)
      · have ht : ¬ (e.join e₂).takes := fun hc => hc.elim (hno.1 v hv ht₂) ht₂
        exact h.puts ht v (.inr hv)
    · -- the join acts like `e`
      have hskip : e₂.Skips := ⟨ht₂, fun v hv => hp₂ ⟨v, hv⟩⟩
      have htakes : (e.join e₂).takes ↔ e.takes := or_iff_left ht₂
      have hputs (v : V) : (e.join e₂).puts v ↔ e.puts v := or_iff_left (hskip.2 v)
      have he : e.Maps x y := h.of_iff htakes hputs
      rw [hskip.maps h₂, maps_eq_iff h₁ he (hle ht₂)]
      refine ⟨fun ht => ⟨fun v hv => absurd hv (hskip.2 v), fun _ => ht⟩, fun hall => ?_⟩
      exact hall.2 hskip

end Edit

end Swk
