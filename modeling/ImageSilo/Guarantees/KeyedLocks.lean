import ImageSilo.IndexBarrier.KeyedLock

/-! Where every caller stands determines the entries of the map, their counts and their holders. -/
namespace ImageSilo.IndexBarrier

open Go Tables Concurrent

/-- Where a caller stands between its steps. -/
inductive Phase
  | outside
  | waiting (entry : Nat)
  | holding (entry : Nat)
  | leaving (entry : Nat)
  | finished

/-- What is left of the call. -/
def Phase.rest (key : GoString) : Phase → LockProgram Unit
  | outside => locking key
  | waiting entry => do
      let _ ← Program.perform (LockAction.acquire entry)
      unlock key entry
  | holding entry => unlock key entry
  | leaving entry => Program.perform (LockAction.deregister key entry)
  | finished => .done ()

/-- The entry a caller has registered on and not yet left. -/
def Phase.registered? : Phase → Option Nat
  | outside | finished => none
  | waiting entry | holding entry | leaving entry => some entry

/-- The lock of the map and where the callers stand. -/
structure Exact (keys : Nat → GoString) (l : KeyedLocker) (at' : Nat → Phase) : Prop where
  registered : ∀ i entry, (at' i).registered? = some entry → l.entries.lookup (keys i) = some entry
  apart : ∀ key key' entry, l.entries.lookup key = some entry → l.entries.lookup key' = some entry →
    key = key'
  allocated : ∀ key entry, l.entries.lookup key = some entry → entry < l.next
  counted : ∀ entry, ∃ callers : Finset Nat, (∀ i, i ∈ callers ↔ (at' i).registered? = some entry) ∧
    (l.heap entry).refs = callers.card
  present : ∀ entry, 0 < (l.heap entry).refs ↔ ∃ key, l.entries.lookup key = some entry
  locked : ∀ entry, (l.heap entry).locked = true ↔ ∃ i, at' i = .holding entry
  single : ∀ i j entry, at' i = .holding entry → at' j = .holding entry → i = j

variable {keys : Nat → GoString} {l l' : KeyedLocker} {at' : Nat → Phase} {i : Nat} {entry : Nat}

section Steps

theorem entry_update {p : Phase} (j : Nat) : (Function.update at' i p j).registered? =
    if j = i then p.registered? else (at' j).registered? := by
  by_cases self : j = i
  · rw [self, Function.update_self, if_pos rfl]
  · rw [Function.update_of_ne self, if_neg self]

theorem entry_same {p : Phase} (same : p.registered? = (at' i).registered?) (j : Nat) :
    (Function.update at' i p j).registered? = (at' j).registered? := by
  rw [entry_update]
  split
  · rename_i self
    rw [self]
    exact same
  · rfl

/-- Who holds an entry after a step of a caller that held none. -/
theorem holding_update {p : Phase} {j : Nat} (before : at' i ≠ .holding entry)
    (after : p ≠ .holding entry) :
    Function.update at' i p j = .holding entry ↔ at' j = .holding entry := by
  by_cases self : j = i
  · rw [self, Function.update_self]
    exact iff_of_false after before
  · rw [Function.update_of_ne self]

theorem refs_setLocked (l : KeyedLocker) (entry entry' : Nat) (b : Bool) :
    ((l.setLocked entry b).heap entry').refs = (l.heap entry').refs := by
  unfold KeyedLocker.setLocked
  by_cases same : entry' = entry
  · rw [same]
    simp
  · simp [same]

theorem Exact.begin : Exact keys .empty fun _ => .outside where
  registered i entry on := by cases on
  apart key key' entry there := by simp [KeyedLocker.empty] at there
  allocated key entry there := by simp [KeyedLocker.empty] at there
  counted entry := ⟨∅, by simp [Phase.registered?], rfl⟩
  present entry := by simp [KeyedLocker.empty]
  locked entry := by simp [KeyedLocker.empty]
  single i j entry holds := by cases holds

/-- Nobody stands at an entry that has not been allocated. -/
theorem Exact.unused (h : Exact keys l at') (j : Nat) : (at' j).registered? ≠ some l.next := by
  intro on
  exact absurd (h.allocated _ _ (h.registered j _ on)) (lt_irrefl _)

theorem Exact.holder (h : Exact keys l at') (holds : at' i = .holding entry) :
    (l.heap entry).locked = true :=
  (h.locked entry).mpr ⟨i, holds⟩

/-- A step of an entry's mutex, which leaves the map and the counts alone. -/
theorem Exact.setLocked {p : Phase} {b : Bool} (h : Exact keys l at')
    (same : p.registered? = (at' i).registered?)
    (locked : ∀ entry', ((l.setLocked entry b).heap entry').locked = true ↔
      ∃ j, Function.update at' i p j = .holding entry')
    (single : ∀ j k entry', Function.update at' i p j = .holding entry' →
      Function.update at' i p k = .holding entry' → j = k) :
    Exact keys (l.setLocked entry b) (Function.update at' i p) where
  registered j entry' on := by
    rw [entry_same same] at on
    exact h.registered j entry' on
  apart := h.apart
  allocated := h.allocated
  counted entry' := by
    obtain ⟨callers, members, count⟩ := h.counted entry'
    refine ⟨callers, fun j => ?_, by rw [refs_setLocked, count]⟩
    rw [entry_same same]
    exact members j
  present entry' := by
    rw [refs_setLocked]
    exact h.present entry'
  locked := locked
  single := single

theorem Exact.acquire (h : Exact keys l at') (waits : at' i = .waiting entry)
    (free : (l.heap entry).locked = false) :
    Exact keys (l.setLocked entry true) (Function.update at' i (.holding entry)) := by
  have nobody : ∀ j, at' j ≠ .holding entry := by
    intro j holds
    rw [h.holder holds] at free
    cases free
  have other : ∀ {entry'}, entry' ≠ entry → ∀ j,
      (Function.update at' i (.holding entry) j = .holding entry' ↔ at' j = .holding entry') := by
    intro entry' differs j
    refine holding_update (by simp [waits]) ?_
    intro same
    exact differs (Phase.holding.inj same).symm
  refine h.setLocked (by rw [waits]; rfl) ?_ ?_
  · intro entry'
    unfold KeyedLocker.setLocked
    by_cases same : entry' = entry
    · subst same
      exact iff_of_true (by simp) ⟨i, Function.update_self ..⟩
    · simp only [Function.update_of_ne same, other same]
      exact h.locked entry'
  · intro j k entry' first second
    by_cases same : entry' = entry
    · subst same
      have self : ∀ m, Function.update at' i (.holding entry') m = .holding entry' → m = i := by
        intro m holds
        by_contra differs
        rw [Function.update_of_ne differs] at holds
        exact nobody m holds
      rw [self j first, self k second]
    · exact h.single j k entry' ((other same j).mp first) ((other same k).mp second)

theorem Exact.release (h : Exact keys l at') (holds : at' i = .holding entry) :
    Exact keys (l.setLocked entry false) (Function.update at' i (.leaving entry)) := by
  have other : ∀ {entry'}, entry' ≠ entry → ∀ j,
      (Function.update at' i (.leaving entry) j = .holding entry' ↔ at' j = .holding entry') := by
    intro entry' differs j
    refine holding_update ?_ (by simp)
    rw [holds]
    intro same
    exact differs (Phase.holding.inj same).symm
  have nobody : ∀ j, Function.update at' i (.leaving entry) j ≠ .holding entry := by
    intro j there
    by_cases self : j = i
    · rw [self, Function.update_self] at there
      cases there
    · rw [Function.update_of_ne self] at there
      exact self (h.single j i entry there holds)
  refine h.setLocked (by rw [holds]; rfl) ?_ ?_
  · intro entry'
    unfold KeyedLocker.setLocked
    by_cases same : entry' = entry
    · subst same
      refine iff_of_false (by simp) ?_
      rintro ⟨j, there⟩
      exact nobody j there
    · simp only [Function.update_of_ne same, other same]
      exact h.locked entry'
  · intro j k entry' first second
    have same : entry' ≠ entry := by
      rintro rfl
      exact nobody j first
    exact h.single j k entry' ((other same j).mp first) ((other same k).mp second)

theorem refs_join (l : KeyedLocker) (entry entry' : Nat) : ((l.join entry).heap entry').refs =
    if entry' = entry then (l.heap entry).refs + 1 else (l.heap entry').refs := by
  unfold KeyedLocker.join
  split
  · rename_i same
    rw [same]
    simp
  · rename_i other
    simp [other]

theorem locked_join (l : KeyedLocker) (entry entry' : Nat) :
    ((l.join entry).heap entry').locked = (l.heap entry').locked := by
  unfold KeyedLocker.join
  by_cases same : entry' = entry
  · rw [same]
    simp
  · simp [same]

theorem heap_create (l : KeyedLocker) (key : GoString) (entry : Nat) :
    (l.create key).heap entry = if entry = l.next then ⟨false, 1⟩ else l.heap entry :=
  Function.update_apply l.heap l.next ⟨false, 1⟩ entry

theorem lookup_create (l : KeyedLocker) (key key' : GoString) :
    (l.create key).entries.lookup key' = if key' = key then some l.next else l.entries.lookup key' :=
  lookup_insert_ite _ _ _ _

theorem refs_deregister (l : KeyedLocker) (key : GoString) (entry entry' : Nat) :
    ((l.deregister key entry).heap entry').refs =
      if entry' = entry then (l.heap entry).refs - 1 else (l.heap entry').refs := by
  unfold KeyedLocker.deregister
  by_cases same : entry' = entry
  · rw [same, if_pos rfl]
    simp
  · simp [same]

theorem locked_deregister (l : KeyedLocker) (key : GoString) (entry entry' : Nat) :
    ((l.deregister key entry).heap entry').locked = (l.heap entry').locked := by
  unfold KeyedLocker.deregister
  by_cases same : entry' = entry
  · rw [same]
    simp
  · simp [same]

/-- The callers at an entry when one more has registered. -/
theorem registered_insert {callers : Finset Nat} (outside : at' i = .outside)
    (members : ∀ j, j ∈ callers ↔ (at' j).registered? = some entry) :
    i ∉ callers ∧ ∀ j, j ∈ insert i callers ↔
      (Function.update at' i (.waiting entry) j).registered? = some entry := by
  have new : i ∉ callers := by
    rw [members, outside]
    simp [Phase.registered?]
  refine ⟨new, fun j => ?_⟩
  rw [Finset.mem_insert, members, entry_update]
  by_cases self : j = i
  · simp [self, Phase.registered?]
  · simp [self]

theorem holding_register (outside : at' i = .outside) (entry entry' : Nat) (j : Nat) :
    Function.update at' i (.waiting entry) j = .holding entry' ↔ at' j = .holding entry' :=
  holding_update (by simp [outside]) (by simp)

theorem Exact.join (h : Exact keys l at') (outside : at' i = .outside)
    (there : l.entries.lookup (keys i) = some entry) :
    Exact keys (l.join entry) (Function.update at' i (.waiting entry)) where
  registered j entry' on := by
    rw [entry_update] at on
    split at on
    · rename_i self
      cases on
      rw [self]
      exact there
    · exact h.registered j entry' on
  apart := h.apart
  allocated := h.allocated
  counted entry' := by
    obtain ⟨callers, members, count⟩ := h.counted entry'
    by_cases same : entry' = entry
    · subst same
      obtain ⟨new, members'⟩ := registered_insert outside members
      refine ⟨insert i callers, members', ?_⟩
      rw [refs_join, if_pos rfl, Finset.card_insert_of_notMem new, count]
      rfl
    · refine ⟨callers, fun j => ?_, by rw [refs_join, if_neg same, count]⟩
      rw [members, entry_update]
      split
      · rename_i self
        rw [self, outside]
        simp [Phase.registered?, Ne.symm same]
      · rfl
  present entry' := by
    by_cases same : entry' = entry
    · subst same
      have positive := (h.present entry').mpr ⟨_, there⟩
      rw [refs_join, if_pos rfl]
      exact iff_of_true (by omega) ⟨_, there⟩
    · rw [refs_join, if_neg same]
      exact h.present entry'
  locked entry' := by
    simp only [holding_register outside, locked_join]
    exact h.locked entry'
  single j k entry' first second :=
    h.single j k entry' ((holding_register outside entry entry' j).mp first)
      ((holding_register outside entry entry' k).mp second)

theorem Exact.create (h : Exact keys l at') (outside : at' i = .outside)
    (absent : l.entries.lookup (keys i) = none) :
    Exact keys (l.create (keys i)) (Function.update at' i (.waiting l.next)) where
  registered j entry' on := by
    rw [entry_update] at on
    rw [lookup_create]
    split at on
    · rename_i self
      cases on
      rw [self, if_pos rfl]
    · have before := h.registered j entry' on
      have other : keys j ≠ keys i := by
        intro same
        rw [same, absent] at before
        cases before
      rw [if_neg other]
      exact before
  apart key key' entry' first second := by
    rw [lookup_create] at first second
    split at first
    · split at second
      · rename_i same same'
        exact same.trans same'.symm
      · cases first
        exact absurd (h.allocated _ _ second) (lt_irrefl _)
    · split at second
      · cases second
        exact absurd (h.allocated _ _ first) (lt_irrefl _)
      · exact h.apart key key' entry' first second
  allocated key entry' there := by
    rw [lookup_create] at there
    split at there
    · cases there
      exact Nat.lt_succ_self _
    · exact Nat.lt_succ_of_lt (h.allocated key entry' there)
  counted entry' := by
    by_cases same : entry' = l.next
    · subst same
      refine ⟨{i}, fun j => ?_, by rw [heap_create, if_pos rfl]; rfl⟩
      rw [Finset.mem_singleton, entry_update]
      split
      · rename_i self
        exact iff_of_true self rfl
      · rename_i other
        exact iff_of_false other (h.unused j)
    · obtain ⟨callers, members, count⟩ := h.counted entry'
      refine ⟨callers, fun j => ?_, by rw [heap_create, if_neg same, count]⟩
      rw [members, entry_update]
      split
      · rename_i self
        rw [self, outside]
        simp [Phase.registered?, Ne.symm same]
      · rfl
  present entry' := by
    by_cases same : entry' = l.next
    · subst same
      rw [heap_create, if_pos rfl]
      exact iff_of_true (by decide) ⟨keys i, by rw [lookup_create, if_pos rfl]⟩
    · rw [heap_create, if_neg same, h.present]
      constructor
      · rintro ⟨key, there⟩
        refine ⟨key, ?_⟩
        rw [lookup_create, if_neg, there]
        rintro rfl
        rw [absent] at there
        cases there
      · rintro ⟨key, there⟩
        rw [lookup_create] at there
        split at there
        · cases there
          exact absurd rfl same
        · exact ⟨key, there⟩
  locked entry' := by
    simp only [holding_register outside]
    by_cases same : entry' = l.next
    · subst same
      rw [heap_create, if_pos rfl]
      refine iff_of_false (by simp) ?_
      rintro ⟨j, holds⟩
      refine h.unused j ?_
      rw [holds]
      rfl
    · rw [heap_create, if_neg same]
      exact h.locked entry'
  single j k entry' first second :=
    h.single j k entry' ((holding_register outside l.next entry' j).mp first)
      ((holding_register outside l.next entry' k).mp second)

theorem Exact.register (h : Exact keys l at') (outside : at' i = .outside) :
    Exact keys (l.register (keys i)).2
      (Function.update at' i (.waiting (l.register (keys i)).1)) := by
  unfold KeyedLocker.register
  cases there : l.entries.lookup (keys i) with
  | none => exact h.create outside there
  | some entry => exact h.join outside there

theorem Exact.deregister (h : Exact keys l at') (leaves : at' i = .leaving entry) :
    Exact keys (l.deregister (keys i) entry) (Function.update at' i .finished) := by
  have mine : (at' i).registered? = some entry := by
    rw [leaves]
    rfl
  have there := h.registered i entry mine
  obtain ⟨callers, members, count⟩ := h.counted entry
  have inside : i ∈ callers := (members i).mpr mine
  have holding : ∀ entry' j, Function.update at' i .finished j = .holding entry' ↔
      at' j = .holding entry' := fun entry' j => holding_update (by simp [leaves]) (by simp)
  have others : ∀ j, j ∈ callers.erase i ↔
      (Function.update at' i .finished j).registered? = some entry := by
    intro j
    rw [Finset.mem_erase, members, entry_update]
    by_cases self : j = i
    · simp [self, Phase.registered?]
    · simp [self]
  have left : (l.heap entry).refs - 1 = (callers.erase i).card := by
    rw [count, Finset.card_erase_of_mem inside]
    have positive := Finset.card_pos.mpr ⟨i, inside⟩
    omega
  -- the entry leaves the map with its last caller
  have empty : (l.heap entry).refs - 1 = 0 → ∀ j,
      (Function.update at' i .finished j).registered? ≠ some entry := by
    intro zero j on
    have none : (callers.erase i).card = 0 := by omega
    rw [← others, Finset.card_eq_zero.mp none] at on
    simp at on
  have lookup : ∀ key entry', (l.deregister (keys i) entry).entries.lookup key = some entry' ↔
      l.entries.lookup key = some entry' ∧ ((l.heap entry).refs - 1 = 0 → entry' ≠ entry) := by
    intro key entry'
    unfold KeyedLocker.deregister
    split
    · rename_i zero
      rw [lookup_erase_ite]
      split
      · rename_i same
        rw [same, there]
        simp [zero, eq_comm]
      · rename_i differs
        constructor
        · intro found
          refine ⟨found, fun _ same => differs ?_⟩
          exact h.apart key (keys i) entry' found (same ▸ there)
        · exact fun found => found.1
    · rename_i more
      simp [more]
  constructor
  · intro j entry' on
    rw [lookup]
    refine ⟨?_, fun zero same => empty zero j (same ▸ on)⟩
    rw [entry_update] at on
    split at on
    · cases on
    · exact h.registered j entry' on
  · intro key key' entry' first second
    exact h.apart key key' entry' ((lookup key entry').mp first).1 ((lookup key' entry').mp second).1
  · intro key entry' found
    exact h.allocated key entry' ((lookup key entry').mp found).1
  · intro entry'
    by_cases same : entry' = entry
    · subst same
      exact ⟨callers.erase i, others, by rw [refs_deregister, if_pos rfl, left]⟩
    · obtain ⟨callers', members', count'⟩ := h.counted entry'
      refine ⟨callers', fun j => ?_, by rw [refs_deregister, if_neg same, count']⟩
      rw [members', entry_update]
      split
      · rename_i self
        rw [self, mine]
        simp [Phase.registered?, Ne.symm same]
      · rfl
  · intro entry'
    simp only [lookup]
    by_cases same : entry' = entry
    · subst same
      rw [refs_deregister, if_pos rfl]
      constructor
      · intro positive
        exact ⟨keys i, there, fun zero => absurd zero positive.ne'⟩
      · rintro ⟨key, -, more⟩
        have more' : (l.heap entry').refs - 1 ≠ 0 := fun zero => more zero rfl
        omega
    · rw [refs_deregister, if_neg same, h.present]
      simp [same]
  · intro entry'
    simp only [holding, locked_deregister]
    exact h.locked entry'
  · intro j k entry' first second
    exact h.single j k entry' ((holding entry' j).mp first) ((holding entry' k).mp second)

end Steps

section Runs

variable {w : World lockMachine Unit} {τ : List (Event lockMachine)}

/-- Every caller is at the point of its call that its phase tells. -/
structure Stands (keys : Nat → GoString) (w : World lockMachine Unit) (at' : Nat → Phase) : Prop where
  program : ∀ i, w.calls i = (at' i).rest (keys i)
  exact : Exact keys w.shared at'

theorem Stands.proceed {p : Phase} {rest : LockProgram Unit} (h : Stands keys w at')
    (program : rest = p.rest (keys i)) (exact : Exact keys l' (Function.update at' i p)) :
    Stands keys (w.proceed i l' rest) (Function.update at' i p) := by
  refine ⟨fun j => ?_, exact⟩
  by_cases self : j = i
  · subst self
    rw [World.proceed_self, Function.update_self]
    exact program
  · rw [World.proceed_other _ _ _ self, Function.update_of_ne self]
    exact h.program j

/-- One step of one caller. -/
theorem Stands.step {a : LockAction} {next : LockResponse a → LockProgram Unit} {r : LockResponse a}
    (h : Stands keys w at') (program : w.calls i = .act a next)
    (performed : w.shared.perform a = some (r, l')) :
    ∃ at'', Stands keys (w.proceed i l' (next r)) at'' := by
  have stands := h.program i
  rw [program] at stands
  cases phase : at' i with
  | outside =>
      rw [phase] at stands
      cases stands
      have registered : w.shared.register (keys i) = (r, l') := Option.some.inj performed
      have exact := h.exact.register phase
      rw [registered] at exact
      exact ⟨_, h.proceed (p := .waiting r) rfl exact⟩
  | waiting entry =>
      rw [phase] at stands
      cases stands
      obtain ⟨free, ⟨⟩⟩ := Option.ite_none_left_eq_some.mp performed
      exact ⟨_, h.proceed (p := .holding entry) rfl (h.exact.acquire phase (by simpa using free))⟩
  | holding entry =>
      rw [phase] at stands
      cases stands
      obtain ⟨-, ⟨⟩⟩ := Option.ite_none_right_eq_some.mp performed
      exact ⟨_, h.proceed (p := .leaving entry) rfl (h.exact.release phase)⟩
  | leaving entry =>
      rw [phase] at stands
      cases stands
      cases performed
      exact ⟨_, h.proceed (p := .finished) rfl (h.exact.deregister phase)⟩
  | finished =>
      rw [phase] at stands
      cases stands

end Runs

end ImageSilo.IndexBarrier
