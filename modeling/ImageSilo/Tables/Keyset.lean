import ImageSilo.Tables.Unique
import Mathlib.Data.List.Sort
import Mathlib.Data.Finset.Card
import Mathlib.Data.Set.Finite.Basic

/-! Reading a table page by page: whatever changes meanwhile, the pages descend and lose no key that
stays. -/
namespace Tables.Keyset

variable {α κ : Type} [LinearOrder κ] (key : α → κ)

/-- The rows below a position, the greatest key first. -/
def ordered (position : Option κ) (rows : List α) : List α :=
  (rows.filter fun r => position.all fun k => key r < k).insertionSort fun r s => key s ≤ key r

def items (limit : Nat) (position : Option κ) (rows : List α) : List α :=
  (ordered key position rows).take limit

def next (limit : Nat) (position : Option κ) (rows : List α) : Option κ :=
  if limit < (ordered key position rows).length then
    (items key limit position rows).getLast?.map key
  else none

section Page

variable {key} {limit : Nat} {position : Option κ} {rows : List α} {r : α} {k : κ}

theorem mem_ordered : r ∈ ordered key position rows ↔
    r ∈ rows ∧ ∀ k, position = some k → key r < k := by
  unfold ordered
  rw [List.mem_insertionSort, List.mem_filter]
  cases position with
  | none => simp
  | some k => simp

theorem ordered_decreasing (position : Option κ) (unique : Unique key rows) :
    (ordered key position rows).Pairwise fun r s => key s < key r := by
  have total : Std.Total fun r s : α => key s ≤ key r := ⟨fun r s => le_total (key s) (key r)⟩
  have trans : IsTrans α fun r s => key s ≤ key r := ⟨fun _ _ _ first second => second.trans first⟩
  have weak : (ordered key position rows).Pairwise fun r s => key s ≤ key r :=
    List.pairwise_insertionSort _ _
  have distinct : ((ordered key position rows).map key).Nodup := by
    have perm := List.perm_insertionSort (fun r s : α => key s ≤ key r)
      (rows.filter fun r => position.all fun k => key r < k)
    exact (perm.map key).nodup_iff.mpr (unique.filter _)
  have differ := List.pairwise_map.mp (List.nodup_iff_pairwise_ne.mp distinct)
  refine (weak.and differ).imp ?_
  intro r s ⟨le, ne⟩
  exact lt_of_le_of_ne le ne.symm

theorem mem_items (member : r ∈ items key limit position rows) :
    r ∈ rows ∧ ∀ k, position = some k → key r < k :=
  mem_ordered.mp (List.mem_of_mem_take member)

theorem items_decreasing (limit : Nat) (position : Option κ) (unique : Unique key rows) :
    (items key limit position rows).Pairwise fun r s => key s < key r :=
  (ordered_decreasing position unique).sublist (List.take_sublist limit _)

theorem next_some (found : next key limit position rows = some k) :
    ∃ r, (items key limit position rows).getLast? = some r ∧ key r = k := by
  unfold next at found
  split at found
  · exact Option.map_eq_some_iff.mp found
  · cases found

/-- The position that a page names is the least key on it. -/
theorem next_least (unique : Unique key rows) (found : next key limit position rows = some k)
    (member : r ∈ items key limit position rows) : k ≤ key r := by
  obtain ⟨s, last, rfl⟩ := next_some found
  have decreasing := items_decreasing limit position unique
  have split := List.dropLast_append_getLast? s last
  rw [← split, List.pairwise_append] at decreasing
  rw [← split, List.mem_append, List.mem_singleton] at member
  rcases member with earlier | rfl
  · exact (decreasing.2.2 r earlier s (List.mem_singleton.mpr rfl)).le
  · exact le_refl _

/-- A row below the position is on the page or below the position that the page names. -/
theorem items_or_later (unique : Unique key rows) (positive : 0 < limit) (there : r ∈ rows)
    (before : ∀ k, position = some k → key r < k) :
    r ∈ items key limit position rows ∨
      ∃ k, next key limit position rows = some k ∧ key r < k := by
  have member : r ∈ ordered key position rows := mem_ordered.mpr ⟨there, before⟩
  rw [← List.take_append_drop limit (ordered key position rows), List.mem_append] at member
  rcases member with front | back
  · exact .inl front
  right
  have long : limit < (ordered key position rows).length := by
    by_contra short
    rw [List.drop_eq_nil_of_le (not_lt.mp short)] at back
    cases back
  have nonempty : items key limit position rows ≠ [] := by
    intro empty
    have length := congrArg List.length empty
    simp only [items, List.length_take, List.length_nil] at length
    omega
  obtain ⟨s, last⟩ : ∃ s, (items key limit position rows).getLast? = some s :=
    ⟨_, List.getLast?_eq_some_getLast nonempty⟩
  refine ⟨key s, ?_, ?_⟩
  · unfold next
    rw [if_pos long, last]
    rfl
  · have decreasing := ordered_decreasing position unique
    rw [← List.take_append_drop limit (ordered key position rows), List.pairwise_append] at decreasing
    exact decreasing.2.2 s (List.mem_of_getLast? last) r back

end Page

/-- A reader that goes from page to page until no position is named; before page `i` the table may
change to `rows i`. -/
inductive Reads (rows : Nat → List α) (limit : Nat → Nat) :
    Nat → Option κ → List (List α) → Prop
  | last {i : Nat} {position : Option κ} (done : next key (limit i) position (rows i) = none) :
      Reads rows limit i position [items key (limit i) position (rows i)]
  | more {i : Nat} {position : Option κ} {k : κ} {pages : List (List α)}
      (found : next key (limit i) position (rows i) = some k)
      (later : Reads rows limit (i + 1) (some k) pages) :
      Reads rows limit i position (items key (limit i) position (rows i) :: pages)

section Reader

variable {key} {rows : Nat → List α} {limit : Nat → Nat} {i : Nat} {position : Option κ}
  {pages : List (List α)}

theorem Reads.descends (reads : Reads key rows limit i position pages) :
    ∀ r ∈ pages.flatten, ∀ k, position = some k → key r < k := by
  induction reads with
  | last done =>
      intro r member
      rw [List.flatten_singleton] at member
      exact (mem_items member).2
  | more found later ih =>
      rename_i i position next pages
      intro r member k same
      rw [List.flatten_cons, List.mem_append] at member
      rcases member with here | there
      · exact (mem_items here).2 k same
      · obtain ⟨s, last, rfl⟩ := next_some found
        have first := (mem_items (List.mem_of_getLast? last)).2 k same
        exact (ih r there (key s) rfl).trans first

theorem Reads.decreasing (reads : Reads key rows limit i position pages)
    (unique : ∀ i, Unique key (rows i)) :
    pages.flatten.Pairwise fun r s => key s < key r := by
  induction reads with
  | last done =>
      rw [List.flatten_singleton]
      exact items_decreasing _ _ (unique _)
  | more found later ih =>
      rw [List.flatten_cons, List.pairwise_append]
      refine ⟨items_decreasing _ _ (unique _), ih, ?_⟩
      intro r here s there
      exact (later.descends s there _ rfl).trans_le (next_least (unique _) found here)

/-- A key that every table of the reading holds is read. -/
theorem Reads.complete (reads : Reads key rows limit i position pages)
    (unique : ∀ i, Unique key (rows i)) (positive : ∀ i, 0 < limit i) {k : κ}
    (before : ∀ k', position = some k' → k < k')
    (there : ∀ j < pages.length, ∃ r ∈ rows (i + j), key r = k) :
    ∃ r ∈ pages.flatten, key r = k := by
  induction reads with
  | last done =>
      obtain ⟨r, member, rfl⟩ := there 0 (Nat.zero_lt_one)
      rcases items_or_later (unique _) (positive _) member before with here | ⟨k, found, -⟩
      · exact ⟨r, by rwa [List.flatten_singleton], rfl⟩
      · rw [Nat.add_zero, done] at found
        cases found
  | more found later ih =>
      rename_i i position next pages
      obtain ⟨r, member, rfl⟩ := there 0 (Nat.zero_lt_succ _)
      rcases items_or_later (unique _) (positive _) member before with here | ⟨k, named, lower⟩
      · refine ⟨r, ?_, rfl⟩
        rw [List.flatten_cons]
        exact List.mem_append_left _ here
      · rw [Nat.add_zero, found] at named
        cases named
        have rest : ∀ j < pages.length, ∃ s ∈ rows (i + 1 + j), key s = key r := by
          intro j short
          have := there (j + 1) (Nat.succ_lt_succ short)
          rwa [show i + (j + 1) = i + 1 + j by omega] at this
        obtain ⟨s, member, same⟩ := ih (fun k' same => by cases same; exact lower) rest
        refine ⟨s, ?_, same⟩
        rw [List.flatten_cons]
        exact List.mem_append_right _ member

theorem Reads.origin (reads : Reads key rows limit i position pages) :
    ∀ r ∈ pages.flatten, ∃ j < pages.length, r ∈ rows (i + j) := by
  induction reads with
  | last done =>
      intro r member
      rw [List.flatten_singleton] at member
      exact ⟨0, Nat.zero_lt_one, (mem_items member).1⟩
  | more found later ih =>
      rename_i i position next pages
      intro r member
      rw [List.flatten_cons, List.mem_append] at member
      rcases member with here | there
      · exact ⟨0, Nat.zero_lt_succ _, (mem_items here).1⟩
      · obtain ⟨j, short, row⟩ := ih r there
        refine ⟨j + 1, Nat.succ_lt_succ short, ?_⟩
        rwa [show i + (j + 1) = i + 1 + j by omega]

/-- Every page but the last holds a row, so there are few pages where there are few keys. -/
theorem Reads.short (reads : Reads key rows limit i position pages) :
    pages.length ≤ pages.flatten.length + 1 := by
  induction reads with
  | last done => exact Nat.le_add_left _ _
  | more found later ih =>
      obtain ⟨r, last, -⟩ := next_some found
      have held := List.length_pos_of_mem (List.mem_of_getLast? last)
      rw [List.length_cons, List.flatten_cons, List.length_append]
      omega

theorem Reads.bounded (reads : Reads key rows limit i position pages)
    (unique : ∀ i, Unique key (rows i)) {keys : Finset κ}
    (within : ∀ i, ∀ r ∈ rows i, key r ∈ keys) : pages.length ≤ keys.card + 1 := by
  have distinct : (pages.flatten.map key).Nodup := by
    rw [List.nodup_iff_pairwise_ne, List.pairwise_map]
    exact (reads.decreasing unique).imp fun lower => lower.ne'
  have inside : (pages.flatten.map key).toFinset ⊆ keys := by
    intro k member
    obtain ⟨r, there, rfl⟩ := List.mem_map.mp (List.mem_toFinset.mp member)
    obtain ⟨j, -, row⟩ := reads.origin r there
    exact within _ r row
  have few := Finset.card_le_card inside
  rw [List.toFinset_card_of_nodup distinct, List.length_map] at few
  have := reads.short
  omega

/-- The reading ends when the keys cannot descend for ever. -/
theorem reads_exists (limit : Nat → Nat) (rank : κ → Nat)
    (descends : ∀ i j, ∀ r ∈ rows i, ∀ s ∈ rows j, key s < key r → rank (key s) < rank (key r))
    (i : Nat) : ∃ pages, Reads key rows limit i none pages := by
  have onwards : ∀ n, ∀ j r, r ∈ rows j → rank (key r) ≤ n → ∀ i,
      ∃ pages, Reads key rows limit i (some (key r)) pages := by
    intro n
    induction n with
    | zero =>
        intro j r row small i
        cases named : next key (limit i) (some (key r)) (rows i) with
        | none => exact ⟨_, .last named⟩
        | some k =>
            obtain ⟨s, last, rfl⟩ := next_some named
            obtain ⟨there, lower⟩ := mem_items (List.mem_of_getLast? last)
            have := descends j i r row s there (lower _ rfl)
            omega
    | succ n ih =>
        intro j r row small i
        cases named : next key (limit i) (some (key r)) (rows i) with
        | none => exact ⟨_, .last named⟩
        | some k =>
            obtain ⟨s, last, rfl⟩ := next_some named
            obtain ⟨there, lower⟩ := mem_items (List.mem_of_getLast? last)
            have less := descends j i r row s there (lower _ rfl)
            obtain ⟨pages, later⟩ := ih i s there (by omega) (i + 1)
            exact ⟨_, .more named later⟩
  cases named : next key (limit i) none (rows i) with
  | none => exact ⟨_, .last named⟩
  | some k =>
      obtain ⟨s, last, rfl⟩ := next_some named
      obtain ⟨pages, later⟩ := onwards _ i s (mem_items (List.mem_of_getLast? last)).1 le_rfl (i + 1)
      exact ⟨_, .more named later⟩

/-- The keys cannot descend for ever within a finite set. -/
theorem reads_exists_within (limit : Nat → Nat) {keys : Set κ} (finite : keys.Finite)
    (within : ∀ i, ∀ r ∈ rows i, key r ∈ keys) (i : Nat) :
    ∃ pages, Reads key rows limit i none pages := by
  refine reads_exists limit (fun k => (finite.toFinset.filter (· < k)).card) ?_ i
  intro i j r member s there lower
  refine Finset.card_lt_card (Finset.ssubset_iff_of_subset ?_ |>.mpr ⟨key s, ?_, ?_⟩)
  · exact Finset.monotone_filter_right _ fun k _ below => below.trans lower
  · exact Finset.mem_filter.mpr ⟨finite.mem_toFinset.mpr (within j s there), lower⟩
  · intro below
    exact lt_irrefl _ (Finset.mem_filter.mp below).2

end Reader

end Tables.Keyset
