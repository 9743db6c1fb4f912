import Mathlib.Algebra.BigOperators.Group.List.Basic
import Mathlib.Data.List.AList
import Mathlib.Data.List.Flatten
import Mathlib.Data.Finset.Dedup
import Mathlib.Data.Finset.Image

/-!
# Hash maps

The maps a Rust program keeps in memory: finitely many keys, one value each, and an order of
iteration nobody may rely on. A map is an association list without repeated keys, Mathlib's
`AList`; the order of its entries is the order in which the map happens to be iterated, so a
statement about every map is a statement about every order.

On top of `AList` stand the three bulk operations of `std::collections::HashMap` that change a
map in place:

* `extend` — insert a list of pairs, a later pair overwriting an earlier one;
* `retain` — drop the entries that fail a test;
* `ofPairs` — `collect` a list of pairs into a new map.

Each comes with one lemma saying what `lookup` returns afterwards, and nothing else about the
operation is ever needed.
-/

namespace Swk

open List

/-! ## Splitting a list by a key -/

section Partition

variable {α κ : Type} [DecidableEq κ]

theorem filter_perm_flatMap {keys : List κ} (key : α → κ) (l : List α) (hnodup : keys.Nodup) :
    (keys.flatMap fun k => l.filter fun a => key a = k).Perm (l.filter fun a => key a ∈ keys) := by
  induction keys with
  | nil => simp
  | cons k keys ih =>
    obtain ⟨hk, hkeys⟩ := nodup_cons.1 hnodup
    have hsplit := filter_append_perm (fun a => decide (key a = k))
      (l.filter fun a => key a ∈ k :: keys)
    rw [filter_filter, filter_filter] at hsplit
    have hfirst : (l.filter fun a => decide (key a = k) && decide (key a ∈ k :: keys)) =
        l.filter fun a => key a = k := by
      refine filter_congr fun a _ => ?_
      by_cases ha : key a = k <;> simp [ha]
    have hrest : (l.filter fun a => !decide (key a = k) && decide (key a ∈ k :: keys)) =
        l.filter fun a => key a ∈ keys := by
      refine filter_congr fun a _ => ?_
      by_cases ha : key a = k <;> simp [ha, hk]
    rw [hfirst, hrest] at hsplit
    exact ((ih hkeys).append_left _).trans hsplit

/-- A list is split into its parts, if every element has one of the keys. -/
theorem perm_flatMap_filter {keys : List κ} (key : α → κ) {l : List α} (hnodup : keys.Nodup)
    (hcover : ∀ a ∈ l, key a ∈ keys) :
    (keys.flatMap fun k => l.filter fun a => key a = k).Perm l := by
  have hperm := filter_perm_flatMap key l hnodup
  rwa [filter_eq_self.2 fun a ha => decide_eq_true (hcover a ha)] at hperm

end Partition

/-! ## Maps -/

/-- A finite map from `K` to `V`. -/
abbrev HashMap (K V : Type) := AList fun _ : K => V

namespace HashMap

variable {K V W : Type} [DecidableEq K]

/-! ## The last value of a list of pairs -/

/-- The value a list of pairs leaves at `k` once it is inserted front to back. -/
def lastValue (k : K) : List (K × V) → Option V
  | [] => none
  | p :: l => (lastValue k l).or (if p.1 = k then some p.2 else none)

@[simp] theorem lastValue_nil (k : K) : lastValue k ([] : List (K × V)) = none := rfl

theorem lastValue_cons (k : K) (p : K × V) (l : List (K × V)) :
    lastValue k (p :: l) = (lastValue k l).or (if p.1 = k then some p.2 else none) := rfl

theorem lastValue_append (k : K) (l l' : List (K × V)) :
    lastValue k (l ++ l') = (lastValue k l').or (lastValue k l) := by
  induction l with
  | nil => simp
  | cons p l ih => rw [cons_append, lastValue_cons, lastValue_cons, ih, Option.or_assoc]

variable {k : K} {l : List (K × V)} {α : Type} {d : V}

theorem lastValue_eq_none : lastValue k l = none ↔ ∀ p ∈ l, p.1 ≠ k := by
  induction l with
  | nil => simp
  | cons p l ih =>
    rw [lastValue_cons, Option.or_eq_none_iff, ih]
    by_cases hp : p.1 = k <;> simp [hp]

variable {v : V} (m : HashMap K V)

theorem mem_of_lastValue (h : lastValue k l = some v) : (k, v) ∈ l := by
  induction l with
  | nil => simp at h
  | cons p l ih =>
    rw [lastValue_cons, Option.or_eq_some_iff] at h
    rcases h with h | ⟨-, h⟩
    · exact mem_cons_of_mem _ (ih h)
    · split at h
      · rename_i hp
        cases h
        rw [← hp]
        exact mem_cons_self
      · simp at h

theorem lastValue_isSome : (lastValue k l).isSome ↔ ∃ v, (k, v) ∈ l := by
  constructor
  · intro h
    obtain ⟨v, hv⟩ := Option.isSome_iff_exists.1 h
    exact ⟨v, mem_of_lastValue hv⟩
  · rintro ⟨v, hv⟩
    rw [Option.isSome_iff_ne_none, Ne, lastValue_eq_none]
    exact fun h => h _ hv rfl

theorem mem_keys_iff : k ∈ l.map Prod.fst ↔ (lastValue k l).isSome := by
  rw [lastValue_isSome]
  refine ⟨fun h => ?_, fun h => ?_⟩
  · obtain ⟨p, hp, rfl⟩ := mem_map.1 h
    exact ⟨p.2, hp⟩
  · obtain ⟨v, hv⟩ := h
    exact mem_map.2 ⟨(k, v), hv, rfl⟩

theorem lastValue_filter (keep : K → Bool) (k : K) (l : List (K × V)) :
    lastValue k (l.filter fun p => keep p.1) = if keep k then lastValue k l else none := by
  induction l with
  | nil => simp
  | cons p l ih =>
    rw [filter_cons, lastValue_cons]
    by_cases hp : p.1 = k
    · subst hp
      by_cases hk : keep p.1 <;> simp [hk, lastValue_cons, ih]
    · by_cases hk : keep p.1 <;> simp [hk, hp, lastValue_cons, ih]

/-- Where a key has one value only, the last value is that value. -/
theorem lastValue_eq_some (hm : (k, v) ∈ l) (huniq : ∀ v', (k, v') ∈ l → v' = v) :
    lastValue k l = some v := by
  obtain ⟨v', hv'⟩ := Option.isSome_iff_exists.1 (lastValue_isSome.2 ⟨v, hm⟩)
  rw [hv', huniq v' (mem_of_lastValue hv')]

/-- A list that pairs keys with the values of a function, where it has one. -/
theorem lastValue_filterMap (f : K → Option V) (k : K) (l : List K) :
    lastValue k (l.filterMap fun k' => (f k').map fun v => (k', v)) =
      if k ∈ l then f k else none := by
  induction l with
  | nil => rfl
  | cons k' l ih =>
    by_cases hk : k' = k
    · subst hk
      cases hf : f k' with
      | none => simp [hf, ih]
      | some v =>
        rw [filterMap_cons_some (by rw [hf]; rfl), lastValue_cons, ih, hf]
        by_cases hl : k' ∈ l <;> simp [hl]
    · have hmem : k ∈ k' :: l ↔ k ∈ l := by simp [Ne.symm hk]
      rw [if_congr hmem rfl rfl, ← ih]
      cases hf : f k' with
      | none => rw [filterMap_cons_none (by rw [hf]; rfl)]
      | some v =>
        rw [filterMap_cons_some (by rw [hf]; rfl), lastValue_cons, if_neg hk, Option.or_none]

/-! ## `extend` -/

def extend (l : List (K × V)) : HashMap K V :=
  l.foldl (fun m p => m.insert p.1 p.2) m

@[simp] theorem extend_nil : extend m [] = m := rfl

theorem extend_append (l l' : List (K × V)) :
    extend m (l ++ l') = extend (extend m l) l' := List.foldl_append

theorem lookup_extend (l : List (K × V)) (k : K) :
    (extend m l).lookup k = (lastValue k l).or (m.lookup k) := by
  induction l generalizing m with
  | nil => rfl
  | cons p l ih =>
    show (extend (m.insert p.1 p.2) l).lookup k = _
    rw [ih, lastValue_cons, Option.or_assoc]
    congr 1
    by_cases hp : p.1 = k
    · subst hp
      simp
    · rw [AList.lookup_insert_ne (Ne.symm hp), if_neg hp, Option.none_or]

theorem mem_extend {m : HashMap K V} :
    k ∈ extend m l ↔ (∃ v, (k, v) ∈ l) ∨ k ∈ m := by
  rw [← AList.lookup_isSome, lookup_extend, Option.isSome_or, Bool.or_eq_true,
    lastValue_isSome, AList.lookup_isSome]

/-! ## `retain` -/

def retain (keep : K → V → Bool) : HashMap K V where
  entries := m.entries.filter fun e => keep e.1 e.2
  nodupKeys := m.nodupKeys.sublist List.filter_sublist

/-- Looking a key up is finding its entry. -/
theorem mem_entries_iff {m : HashMap K V} :
    (⟨k, v⟩ : Σ _ : K, V) ∈ m.entries ↔ m.lookup k = some v :=
  (mem_dlookup_iff m.nodupKeys).symm

theorem lookup_retain (keep : K → V → Bool) (k : K) :
    (retain m keep).lookup k = (m.lookup k).filter (keep k) := by
  ext v
  rw [← mem_entries_iff, Option.filter_eq_some_iff, ← mem_entries_iff]
  exact mem_filter

theorem lookup_retain_keys (keep : K → Bool) (k : K) :
    (retain m fun k _ => keep k).lookup k = if keep k then m.lookup k else none := by
  rw [lookup_retain]
  cases m.lookup k <;> simp [Option.filter]

theorem mem_retain {m : HashMap K V} {keep : K → Bool} :
    k ∈ retain m (fun k _ => keep k) ↔ k ∈ m ∧ keep k = true := by
  rw [← AList.lookup_isSome, lookup_retain_keys, ← AList.lookup_isSome]
  by_cases hk : keep k <;> simp [hk]

/-! ## Collecting -/

/-- `Iterator::collect` into a map. -/
def ofPairs (l : List (K × V)) : HashMap K V := extend ∅ l

@[simp] theorem lookup_ofPairs (l : List (K × V)) (k : K) :
    (ofPairs l).lookup k = lastValue k l := by
  rw [ofPairs, lookup_extend, AList.lookup_empty, Option.or_none]

/-- The entries in iteration order. -/
def toPairs : List (K × V) := m.entries.map fun e => (e.1, e.2)

/-- The values in iteration order. -/
def values : List V := m.entries.map fun e => e.2

theorem mem_toPairs {m : HashMap K V} : (k, v) ∈ m.toPairs ↔ m.lookup k = some v := by
  rw [toPairs, mem_map, ← mem_entries_iff]
  constructor
  · rintro ⟨⟨k', v'⟩, he, h⟩
    cases h
    exact he
  · exact fun h => ⟨⟨k, v⟩, h, rfl⟩

omit [DecidableEq K] in
theorem toPairs_fst (m : HashMap K V) : m.toPairs.map (·.1) = m.keys := by
  rw [toPairs, map_map]
  rfl

omit [DecidableEq K] in
theorem toPairs_keys_nodup (m : HashMap K V) : (m.toPairs.map (·.1)).Nodup := by
  rw [toPairs_fst]
  exact m.keys_nodup

theorem mem_values {m : HashMap K V} {v : V} : v ∈ m.values ↔ ∃ k, m.lookup k = some v := by
  rw [values, mem_map]
  constructor
  · rintro ⟨⟨k, v'⟩, he, rfl⟩
    exact ⟨k, mem_entries_iff.1 he⟩
  · rintro ⟨k, hk⟩
    exact ⟨⟨k, v⟩, mem_entries_iff.2 hk, rfl⟩

theorem mem_iff {m : HashMap K V} : k ∈ m ↔ ∃ v, m.lookup k = some v := by
  rw [← AList.lookup_isSome, Option.isSome_iff_exists]

omit [DecidableEq K] in
theorem isEmpty_entries_iff {m : HashMap K V} : m.entries.isEmpty = true ↔ ∀ k, k ∉ m := by
  rw [List.isEmpty_iff, ← @List.map_eq_nil_iff _ _ Sigma.fst, List.eq_nil_iff_forall_not_mem]
  exact forall_congr' fun k => not_congr AList.mem_keys.symm

/-! ## Entries changed in place -/

/-- `*map.entry(k).or_default()`, changed by `g`; the default is `d`. -/
def entry (m : HashMap K V) (k : K) (d : V) (g : V → V) : HashMap K V :=
  m.insert k (g ((m.lookup k).getD d))

theorem getD_lookup_entry (m : HashMap K V) (k a : K) (d : V) (g : V → V) :
    ((m.entry k d g).lookup a).getD d =
      if k = a then g ((m.lookup a).getD d) else (m.lookup a).getD d := by
  by_cases h : k = a
  · subst h
    rw [entry, AList.lookup_insert, if_pos rfl, Option.getD_some]
  · rw [entry, AList.lookup_insert_ne fun e => h e.symm, if_neg h]

/-- **A tally.** When each element of a list adds its value to the entry of its key, every entry
grows by the sum of the values under its key. The values may be taken in a wider type `M`. -/
theorem getD_lookup_tally {M : Type} [AddMonoid M] [Add V] {φ : M → V}
    (hassoc : ∀ x y z : V, x + y + z = x + (y + z)) (hzero : ∀ x : V, x + φ 0 = x)
    (hadd : ∀ a b, φ (a + b) = φ a + φ b) {key : α → K} {g : α → V → V} {value : α → M}
    (hg : ∀ u x, g u x = x + φ (value u)) (l : List α) (m : HashMap K V) (k : K) :
    ((l.foldl (fun m u => m.entry (key u) d (g u)) m).lookup k).getD d =
      (m.lookup k).getD d + φ (l.map fun u => if key u = k then value u else 0).sum := by
  induction l generalizing m with
  | nil => exact (hzero _).symm
  | cons u l ih =>
    rw [foldl_cons, ih, getD_lookup_entry, map_cons, sum_cons, hadd, ← hassoc]
    by_cases h : key u = k
    · rw [if_pos h, if_pos h, hg]
    · rw [if_neg h, if_neg h, hzero]

theorem mem_foldl_entry (key : α → K) {g : α → V → V} {l : List α} {m : HashMap K V} :
    k ∈ l.foldl (fun m u => m.entry (key u) d (g u)) m ↔ k ∈ m ∨ k ∈ l.map key := by
  induction l generalizing m with
  | nil => simp
  | cons u l ih =>
    rw [foldl_cons, ih, entry, AList.mem_insert, map_cons, mem_cons, or_comm (b := k ∈ m), or_assoc]

/-! ## Groups -/

section Group

variable {α : Type} (key : α → K) (d : K → V) (g : α → V → V)

variable (l : List α)

/-- What the elements of a list with one key make of the default of that key. -/
def groupOf (k : K) : V :=
  (l.filter fun a => key a = k).foldl (fun v a => g a v) (d k)

/-- Each element of a list changes the entry of its key. -/
def group : HashMap K V :=
  l.foldl (fun m a => m.entry (key a) (d (key a)) (g a)) ∅

theorem group_append_singleton (a : α) :
    group key d g (l ++ [a]) = (group key d g l).entry (key a) (d (key a)) (g a) :=
  foldl_concat _ _ _ _

theorem groupOf_append_singleton (a : α) (k : K) : groupOf key d g (l ++ [a]) k =
      if key a = k then g a (groupOf key d g l k) else groupOf key d g l k := by
  unfold groupOf
  by_cases h : key a = k <;> simp [h]

theorem groupOf_eq_of_not_mem {l : List α} {k : K} (h : ∀ a ∈ l, key a ≠ k) :
    groupOf key d g l k = d k := by
  have hnil : (l.filter fun a => decide (key a = k)) = [] :=
    filter_eq_nil_iff.2 fun a ha => by simpa using h a ha
  rw [groupOf, hnil, foldl_nil]

/-- **Grouping.** The map has the keys of the list, and under each the group of that key. -/
theorem lookup_group (k : K) : (group key d g l).lookup k =
      if ∃ a ∈ l, key a = k then some (groupOf key d g l k) else none := by
  induction l using reverseRecOn with
  | nil => simp [group]
  | append_singleton l a ih =>
    rw [group_append_singleton, entry, groupOf_append_singleton]
    by_cases h : key a = k
    · subst h
      -- the entry is either there already or starts from the default
      have hold : ((group key d g l).lookup (key a)).getD (d (key a)) =
          groupOf key d g l (key a) := by
        rw [ih]
        split
        · rfl
        · rename_i hnone
          exact (groupOf_eq_of_not_mem key d g fun b hb hk => hnone ⟨b, hb, hk⟩).symm
      rw [AList.lookup_insert, if_pos rfl, if_pos ⟨a, by simp, rfl⟩, hold]
    · rw [AList.lookup_insert_ne (Ne.symm h), ih, if_neg h]
      refine if_congr ?_ rfl rfl
      simp [h]

theorem mem_keys_group {l : List α} {k : K} : k ∈ (group key d g l).keys ↔ ∃ a ∈ l, key a = k := by
  rw [← AList.mem_keys, mem_iff]
  simp only [lookup_group]
  split <;> simp_all

theorem values_group :
    (group key d g l).values = (group key d g l).keys.map (groupOf key d g l) := by
  rw [values, AList.keys, keys, map_map]
  refine map_congr_left fun e he => ?_
  have hlookup := mem_entries_iff.1 he
  rw [lookup_group] at hlookup
  split at hlookup
  · exact (Option.some_inj.1 hlookup).symm
  · cases hlookup

end Group

/-! ## Maps with the same content -/

/-- Two maps hold the same entries, in whatever order. -/
def Same (m m' : HashMap K V) : Prop := ∀ k, m.lookup k = m'.lookup k

@[refl] theorem Same.refl (m : HashMap K V) : Same m m := fun _ => rfl

variable {m m' : HashMap K V}

@[symm] theorem Same.symm (h : Same m m') : Same m' m :=
  fun k => (h k).symm

@[trans] theorem Same.trans {m'' : HashMap K V} (h : Same m m') (h' : Same m' m'') :
    Same m m'' := fun k => (h k).trans (h' k)

theorem Same.of_getD (d : V) (hmem : ∀ k, k ∈ m ↔ k ∈ m')
    (hget : ∀ k, (m.lookup k).getD d = (m'.lookup k).getD d) : Same m m' := by
  intro k
  have hk := hmem k
  have hd := hget k
  rw [mem_iff, mem_iff] at hk
  cases h : m.lookup k <;> cases h' : m'.lookup k <;> simp_all

theorem Same.mem (h : Same m m') (k : K) : k ∈ m ↔ k ∈ m' := by
  rw [mem_iff, mem_iff, h k]

theorem Same.extend (h : Same m m') (l : List (K × V)) :
    Same (m.extend l) (m'.extend l) := fun k => by rw [lookup_extend, lookup_extend, h k]

/-- A map has the entries of a list already. -/
def Has (m : HashMap K V) (l : List (K × V)) : Prop :=
  ∀ k v, lastValue k l = some v → m.lookup k = some v

theorem same_extend_iff : Same (m.extend l) m ↔ m.Has l := by
  refine forall_congr' fun k => ?_
  rw [lookup_extend]
  cases lastValue k l <;> simp [eq_comm]

theorem Same.retain (h : Same m m') (keep : K → V → Bool) :
    Same (m.retain keep) (m'.retain keep) := fun k => by
  rw [lookup_retain, lookup_retain, h k]

/-- The entries as a set: what a function of the map that ignores the order may read. -/
def toFinset [DecidableEq V] (m : HashMap K V) : Finset (Σ _ : K, V) := m.entries.toFinset

theorem Same.toFinset [DecidableEq V] {m m' : HashMap K V} (h : Same m m') :
    m.toFinset = m'.toFinset := by
  ext ⟨k, v⟩
  rw [HashMap.toFinset, HashMap.toFinset, mem_toFinset, mem_toFinset,
    mem_entries_iff, mem_entries_iff, h k]

/-- Maps with the same content have the same keys, up to order. -/
theorem Same.keys_perm (h : Same m m') : m.keys.Perm m'.keys :=
  (perm_ext_iff_of_nodup m.keys_nodup m'.keys_nodup).2 h.mem

end HashMap

end Swk
