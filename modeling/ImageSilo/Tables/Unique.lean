import Mathlib.Data.List.Nodup
import Mathlib.Data.Finmap
import Mathlib.Tactic.Common

/-! Rows with unique columns, and the bulk operations on finite maps. -/
namespace Tables

variable {α κ : Type}

def Unique (f : α → κ) (rows : List α) : Prop := (rows.map f).Nodup

theorem Unique.eq {f : α → κ} {rows : List α} (unique : Unique f rows) {r s : α}
    (first : r ∈ rows) (second : s ∈ rows) (same : f r = f s) : r = s :=
  List.inj_on_of_nodup_map unique first second same

theorem Unique.insert {f : α → κ} {rows : List α} (unique : Unique f rows) {v : α}
    (fresh : ∀ r ∈ rows, f r ≠ f v) : Unique f (rows ++ [v]) := by
  unfold Unique at unique ⊢
  rw [List.map_append, List.nodup_append]
  refine ⟨unique, by simp, ?_⟩
  intro a left b right
  obtain ⟨r, member, rfl⟩ := List.mem_map.mp left
  obtain rfl : b = f v := by simpa using right
  exact fresh r member

theorem Unique.filter {f : α → κ} {rows : List α} (unique : Unique f rows) (p : α → Bool) :
    Unique f (rows.filter p) :=
  unique.sublist (List.filter_sublist.map f)

theorem Unique.update {f : α → κ} {rows : List α} (unique : Unique f rows) {g : α → α}
    (same : ∀ r ∈ rows, f (g r) = f r) : Unique f (rows.map g) := by
  unfold Unique
  rw [List.map_map, show rows.map (f ∘ g) = rows.map f from List.map_congr_left same]
  exact unique

variable [DecidableEq κ]

/-- An update that gives one row a value no other row has. -/
theorem Unique.replace {f : α → κ} {d : α → κ} {rows : List α} (unique : Unique f rows)
    (identified : Unique d rows) {g : α → α} {i k : κ}
    (there : ∀ r ∈ rows, d r = i → f (g r) = k) (elsewhere : ∀ r ∈ rows, d r ≠ i → g r = r)
    (fresh : ∀ r ∈ rows, d r ≠ i → f r ≠ k) : Unique f (rows.map g) := by
  unfold Unique
  rw [List.map_map]
  refine List.Nodup.map_on ?_ (List.Nodup.of_map f unique)
  intro r first s second same
  simp only [Function.comp_apply] at same
  by_cases hr : d r = i
  · by_cases hs : d s = i
    · exact identified.eq first second (hr.trans hs.symm)
    · rw [there r first hr, elsewhere s second hs] at same
      exact absurd same.symm (fresh s second hs)
  · by_cases hs : d s = i
    · rw [elsewhere r first hr, there s second hs] at same
      exact absurd same (fresh r first hr)
    · rw [elsewhere r first hr, elsewhere s second hs] at same
      exact unique.eq first second same

/-- The row with a given value in a column. -/
def row? (f : α → κ) (k : κ) (rows : List α) : Option α := rows.find? fun r => f r == k

theorem row?_some {f : α → κ} {k : κ} {rows : List α} {r : α} (found : row? f k rows = some r) :
    r ∈ rows ∧ f r = k :=
  ⟨List.mem_of_find?_eq_some found, by simpa using List.find?_some found⟩

theorem row?_eq_some {f : α → κ} {rows : List α} (unique : Unique f rows) {r : α}
    (member : r ∈ rows) : row? f (f r) rows = some r := by
  cases found : row? f (f r) rows with
  | none =>
      have := List.find?_eq_none.mp found r member
      simp at this
  | some s =>
      obtain ⟨other, same⟩ := row?_some found
      rw [unique.eq other member same]

section Maps

variable {β : Type}

/-- Keeps the entries that satisfy `p`. -/
def keep (p : κ → β → Bool) (m : Finmap fun _ : κ => β) : Finmap fun _ : κ => β :=
  m.liftOn (fun entries => (AList.mk (entries.entries.filter fun e => p e.1 e.2)
    (entries.nodupKeys.sublist List.filter_sublist)).toFinmap)
    (fun a b same => by
      refine AList.toFinmap_eq.mpr ?_
      exact same.filter _)

/-- Changes the value of every entry. -/
def mapValues (g : κ → β → β) (m : Finmap fun _ : κ => β) : Finmap fun _ : κ => β :=
  m.liftOn (fun entries => (AList.mk (entries.entries.map fun e => ⟨e.1, g e.1 e.2⟩)
    (by
      have := entries.nodupKeys
      unfold List.NodupKeys List.keys at this ⊢
      rwa [List.map_map])).toFinmap)
    (fun a b same => by
      refine AList.toFinmap_eq.mpr ?_
      exact same.map _)

@[simp] theorem lookup_keep (p : κ → β → Bool) (m : Finmap fun _ : κ => β) (k : κ) :
    (keep p m).lookup k = (m.lookup k).filter (p k) := by
  induction m using Finmap.induction_on with
  | H entries =>
      ext v
      have unique := entries.nodupKeys
      change v ∈ List.dlookup k (entries.entries.filter fun e => p e.1 e.2) ↔
        v ∈ (List.dlookup k entries.entries).filter (p k)
      rw [List.mem_dlookup_iff (unique.sublist List.filter_sublist), Option.mem_filter_iff,
        List.mem_dlookup_iff unique, List.mem_filter]

@[simp] theorem lookup_mapValues (g : κ → β → β) (m : Finmap fun _ : κ => β) (k : κ) :
    (mapValues g m).lookup k = (m.lookup k).map (g k) := by
  induction m using Finmap.induction_on with
  | H entries => exact List.dlookup_map₂ k

theorem lookup_insert_ite (m : Finmap fun _ : κ => β) (k k' : κ) (v : β) :
    (m.insert k v).lookup k' = if k' = k then some v else m.lookup k' := by
  by_cases same : k' = k
  · subst same
    simp
  · rw [if_neg same]
    exact Finmap.lookup_insert_of_ne m same

theorem lookup_erase_ite (m : Finmap fun _ : κ => β) (k k' : κ) :
    (m.erase k).lookup k' = if k' = k then none else m.lookup k' := by
  by_cases same : k' = k
  · subst same
    simp
  · rw [if_neg same]
    exact Finmap.lookup_erase_ne same

/-- A map with all keys of a list without repetition has as many exactly when it has no others. -/
theorem card_keys_of_all {m : Finmap fun _ : κ => β} {ks : List κ} (distinct : ks.Nodup)
    (all : ∀ k ∈ ks, k ∈ m) : m.keys.card = ks.length ↔ ∀ k ∈ m, k ∈ ks := by
  rw [← List.toFinset_card_of_nodup distinct]
  have below : ks.toFinset ⊆ m.keys :=
    fun k member => Finmap.mem_keys.mpr (all k (List.mem_toFinset.mp member))
  constructor
  · intro same k there
    have eq := Finset.eq_of_subset_of_card_le below same.le
    exact List.mem_toFinset.mp (eq ▸ Finmap.mem_keys.mpr there)
  · intro none
    have above : m.keys ⊆ ks.toFinset :=
      fun k there => List.mem_toFinset.mpr (none k (Finmap.mem_keys.mp there))
    rw [below.antisymm above]

/-- A map with no other keys than those of a list without repetition has as many exactly when it has
them all. -/
theorem card_keys_of_none {m : Finmap fun _ : κ => β} {ks : List κ} (distinct : ks.Nodup)
    (none : ∀ k ∈ m, k ∈ ks) : m.keys.card = ks.length ↔ ∀ k ∈ ks, k ∈ m := by
  rw [← List.toFinset_card_of_nodup distinct]
  have above : m.keys ⊆ ks.toFinset :=
    fun k there => List.mem_toFinset.mpr (none k (Finmap.mem_keys.mp there))
  constructor
  · intro same k member
    have eq := Finset.eq_of_subset_of_card_le above same.ge
    exact Finmap.mem_keys.mp (eq ▸ List.mem_toFinset.mpr member)
  · intro all
    have below : ks.toFinset ⊆ m.keys :=
      fun k member => Finmap.mem_keys.mpr (all k (List.mem_toFinset.mp member))
    rw [below.antisymm above]

/-- A map that is filled from rows with different keys holds these rows and what it held before. -/
theorem lookup_filled {rows : List (κ × β)} (distinct : (rows.map Prod.fst).Nodup)
    (m : Finmap fun _ : κ => β) (k : κ) (v : β) :
    (rows.foldl (fun m row => m.insert row.1 row.2) m).lookup k = some v ↔
      (k, v) ∈ rows ∨ (k ∉ rows.map Prod.fst ∧ m.lookup k = some v) := by
  induction rows generalizing m with
  | nil => simp
  | cons row rest ih =>
      obtain ⟨k', v'⟩ := row
      rw [List.map_cons, List.nodup_cons] at distinct
      obtain ⟨fresh, distinct⟩ := distinct
      rw [List.foldl_cons, ih distinct, lookup_insert_ite]
      by_cases same : k = k'
      · subst same
        have apart : (k, v) ∉ rest := fun member => fresh (List.mem_map.mpr ⟨_, member, rfl⟩)
        simp only [List.map_cons, List.mem_cons, Prod.mk.injEq, true_and, true_or, not_true,
          false_and, or_false, if_true, Option.some.injEq, apart, false_or, eq_comm]
        exact and_iff_right fresh
      · simp [same]

end Maps

end Tables
