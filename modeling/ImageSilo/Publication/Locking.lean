import ImageSilo.Publication.Frames

/-! The lock tables name exactly the calls whose ledgers say that they hold the lock. -/
namespace ImageSilo.Publication

open Go Concurrent Storage Tables

section Updates

variable {β : Type} {ls : Nat → Ledger} {i : Nat} {l : Ledger}

/-- One entry of every ledger, after one ledger has been replaced. -/
theorem project_update (f : Ledger → β) :
    (fun j => f (Function.update ls i l j)) = Function.update (fun j => f (ls j)) i (f l) := by
  funext j
  exact Function.apply_update (fun _ => f) ls i l j

end Updates

section Tables

abbrev LockTable := Finmap fun _ : GoString => Nat

/-- The lock table names the holders. -/
def Agrees (table : LockTable) (held : Nat → Option GoString) : Prop :=
  ∀ j k, held j = some k ↔ table.lookup k = some j

variable {table table' : LockTable} {held : Nat → Option GoString} {i : Nat} {key : GoString}

theorem lockKey_some (locked : lockKey table i key = some table') :
    table.lookup key = none ∧ table' = table.insert key i := by
  unfold lockKey at locked
  split at locked
  · rename_i free
    cases locked
    exact ⟨by simpa using free, rfl⟩
  · cases locked

theorem unlockKey_some (unlocked : unlockKey table i key = some table') :
    table.lookup key = some i ∧ table' = table.erase key := by
  unfold unlockKey at unlocked
  split at unlocked
  · rename_i mine
    cases unlocked
    exact ⟨mine, rfl⟩
  · cases unlocked

theorem Agrees.lock (agree : Agrees table held) (free : table.lookup key = none)
    (idle : held i = none) : Agrees (table.insert key i) (Function.update held i (some key)) := by
  intro j k
  rw [lookup_insert_ite]
  by_cases self : j = i
  · subst self
    by_cases same : k = key
    · simp [same]
    · have := agree j k
      simp only [idle, reduceCtorEq, false_iff] at this
      simp [same, Ne.symm same, this]
  · rw [Function.update_of_ne self]
    by_cases same : k = key
    · subst same
      have := agree j k
      simp only [free, reduceCtorEq, iff_false] at this
      simp [this, Ne.symm self]
    · simp [same, agree j k]

theorem Agrees.unlock (agree : Agrees table held) (mine : held i = some key) :
    Agrees (table.erase key) (Function.update held i none) := by
  intro j k
  rw [lookup_erase_ite]
  by_cases self : j = i
  · subst self
    by_cases same : k = key
    · simp [same]
    · have := (agree j k).not
      simp only [mine, Option.some.injEq, Ne.symm same, not_false_eq_true, true_iff] at this
      simp [same, this]
  · rw [Function.update_of_ne self]
    by_cases same : k = key
    · subst same
      have other := (agree i k).mp mine
      have := agree j k
      simp only [other, Option.some.injEq, Ne.symm self, iff_false] at this
      simp [this]
    · simp [same, agree j k]

end Tables

section Barrier

/-- The rebuild lock names the calls on its two sides. -/
structure Barrier (locks : Locks) (hold : Nat → Hold) : Prop where
  shared : ∀ i, hold i = .shared ↔ i ∈ locks.readers
  waiting : ∀ i, hold i = .waiting ↔ locks.writer = some ⟨i, false⟩
  exclusive : ∀ i, hold i = .exclusive ↔ locks.writer = some ⟨i, true⟩
  entered : ∀ i, locks.writer = some ⟨i, true⟩ → locks.readers = ∅

variable {locks : Locks} {hold : Nat → Hold} {i : Nat}

theorem Barrier.beginChange (h : Barrier locks hold) (free : hold i = .free)
    (open' : locks.writer = none) :
    Barrier { locks with readers := insert i locks.readers } (Function.update hold i .shared) := by
  constructor
  · intro j
    by_cases self : j = i
    · subst self
      simp
    · simpa [Function.update_of_ne self, self] using h.shared j
  · intro j
    by_cases self : j = i
    · subst self
      simp [open']
    · simpa [Function.update_of_ne self] using h.waiting j
  · intro j
    by_cases self : j = i
    · subst self
      simp [open']
    · simpa [Function.update_of_ne self] using h.exclusive j
  · intro j writer
    exact absurd (open'.symm.trans writer) (by simp)

theorem Barrier.endChange (h : Barrier locks hold) (changing : hold i = .shared) :
    Barrier { locks with readers := locks.readers.erase i } (Function.update hold i .free) := by
  have notWriter : ∀ b, locks.writer ≠ some ⟨i, b⟩ := by
    intro b writer
    cases b with
    | false => simpa [changing] using (h.waiting i).mpr writer
    | true => simpa [changing] using (h.exclusive i).mpr writer
  constructor
  · intro j
    by_cases self : j = i
    · subst self
      simp
    · simpa [Function.update_of_ne self, self] using h.shared j
  · intro j
    by_cases self : j = i
    · subst self
      simp [notWriter]
    · simpa [Function.update_of_ne self] using h.waiting j
  · intro j
    by_cases self : j = i
    · subst self
      simp [notWriter]
    · simpa [Function.update_of_ne self] using h.exclusive j
  · intro j writer
    simp [h.entered j writer]

/-- The writer's side of the lock: its two stages, and the way back. -/
theorem Barrier.write (h : Barrier locks hold) {writer : Option Writer} {side : Hold}
    (reader : hold i ≠ .shared) (side_ne : side ≠ .shared)
    (old : locks.writer = none ∨ ∃ b, locks.writer = some ⟨i, b⟩)
    (waiting : side = .waiting ↔ writer = some ⟨i, false⟩)
    (exclusive : side = .exclusive ↔ writer = some ⟨i, true⟩)
    (new : writer = none ∨ ∃ b, writer = some ⟨i, b⟩)
    (entered : writer = some ⟨i, true⟩ → locks.readers = ∅) :
    Barrier { locks with writer := writer } (Function.update hold i side) := by
  have others : ∀ j, j ≠ i → ∀ b, locks.writer ≠ some ⟨j, b⟩ ∧ writer ≠ some ⟨j, b⟩ := by
    intro j other b
    constructor
    · rcases old with none | ⟨b', mine⟩
      · simp [none]
      · simp [mine, Ne.symm other]
    · rcases new with none | ⟨b', mine⟩
      · simp [none]
      · simp [mine, Ne.symm other]
  constructor
  · intro j
    by_cases self : j = i
    · subst self
      simpa [side_ne] using (h.shared j).not.mp reader
    · simpa [Function.update_of_ne self] using h.shared j
  · intro j
    by_cases self : j = i
    · subst self
      simpa using waiting
    · simpa [Function.update_of_ne self, others j self] using h.waiting j
  · intro j
    by_cases self : j = i
    · subst self
      simpa using exclusive
    · simpa [Function.update_of_ne self, others j self] using h.exclusive j
  · intro j writes
    by_cases self : j = i
    · subst self
      exact entered writes
    · exact absurd writes (others j self true).2

end Barrier

structure Held (locks : Locks) (ls : Nat → Ledger) : Prop where
  images : Agrees locks.images fun j => (ls j).image
  aliases : Agrees locks.aliases fun j => (ls j).path
  barrier : Barrier locks fun j => (ls j).hold

namespace Held

variable {locks locks' : Locks} {ls : Nat → Ledger} {i j : Nat}

theorem image_holder (h : Held locks ls) {id : GoString} (first : (ls i).image = some id)
    (second : (ls j).image = some id) : i = j :=
  Option.some.inj (((h.images i id).mp first).symm.trans ((h.images j id).mp second))

theorem path_holder (h : Held locks ls) {path : GoString} (first : (ls i).path = some path)
    (second : (ls j).path = some path) : i = j :=
  Option.some.inj (((h.aliases i path).mp first).symm.trans ((h.aliases j path).mp second))

/-- While one call rebuilds, no call is inside a change. -/
theorem alone (h : Held locks ls) (rebuilds : (ls i).hold = .exclusive) :
    (ls j).hold ≠ .shared := by
  intro changes
  have reads := (h.barrier.shared j).mp changes
  rw [h.barrier.entered i ((h.barrier.exclusive i).mp rebuilds)] at reads
  exact absurd reads (Finset.notMem_empty j)

theorem begin (requests : Nat → Request) : Held .free fun i => Ledger.begin (requests i) := by
  refine ⟨?_, ?_, ?_, ?_, ?_, ?_⟩
  · intro j k
    simp [Ledger.begin, Locks.free]
  · intro j k
    simp [Ledger.begin, Locks.free]
  · intro j
    simp [Ledger.begin, Locks.free]
  · intro j
    simp [Ledger.begin, Locks.free]
  · intro j
    simp [Ledger.begin, Locks.free]
  · intro j
    simp [Locks.free]

theorem of_parts {l : Ledger}
    (images : Agrees locks'.images (Function.update (fun j => (ls j).image) i l.image))
    (aliases : Agrees locks'.aliases (Function.update (fun j => (ls j).path) i l.path))
    (barrier : Barrier locks' (Function.update (fun j => (ls j).hold) i l.hold)) :
    Held locks' (Function.update ls i l) := by
  constructor
  · rw [project_update Ledger.image]
    exact images
  · rw [project_update Ledger.path]
    exact aliases
  · rw [project_update Ledger.hold]
    exact barrier

theorem keep_images (h : Held locks ls) :
    Agrees locks.images (Function.update (fun j => (ls j).image) i (ls i).image) := by
  rw [Function.update_eq_self]
  exact h.images

theorem keep_aliases (h : Held locks ls) :
    Agrees locks.aliases (Function.update (fun j => (ls j).path) i (ls i).path) := by
  rw [Function.update_eq_self]
  exact h.aliases

theorem keep_barrier (h : Held locks ls) (readers : locks'.readers = locks.readers)
    (writer : locks'.writer = locks.writer) :
    Barrier locks' (Function.update (fun j => (ls j).hold) i (ls i).hold) := by
  rw [Function.update_eq_self]
  obtain ⟨shared, waiting, exclusive, entered⟩ := h.barrier
  constructor
  · rwa [readers]
  · rwa [writer]
  · rwa [writer]
  · rwa [readers, writer]

theorem same (h : Held locks ls) {l : Ledger} (image : l.image = (ls i).image)
    (path : l.path = (ls i).path) (hold : l.hold = (ls i).hold) :
    Held locks (Function.update ls i l) := by
  refine .of_parts ?_ ?_ ?_
  · rw [image]
    exact h.keep_images
  · rw [path]
    exact h.keep_aliases
  · rw [hold]
    exact h.keep_barrier rfl rfl

theorem sync (h : Held locks ls) {s : Sync} (allowed : (ls i).allowsSync s)
    (performed : locks.perform i s = some locks') :
    Held locks' (Function.update ls i ((ls i).recordSync s)) := by
  cases s with
  | lockImage id =>
      obtain ⟨table, locked, rfl⟩ := Option.map_eq_some_iff.mp performed
      obtain ⟨free, rfl⟩ := lockKey_some locked
      exact .of_parts (h.images.lock free allowed.1) h.keep_aliases (h.keep_barrier rfl rfl)
  | unlockImage id =>
      obtain ⟨table, unlocked, rfl⟩ := Option.map_eq_some_iff.mp performed
      obtain ⟨-, rfl⟩ := unlockKey_some unlocked
      exact .of_parts (h.images.unlock allowed.1) h.keep_aliases (h.keep_barrier rfl rfl)
  | lockAlias path =>
      obtain ⟨table, locked, rfl⟩ := Option.map_eq_some_iff.mp performed
      obtain ⟨free, rfl⟩ := lockKey_some locked
      exact .of_parts h.keep_images (h.aliases.lock free allowed.1) (h.keep_barrier rfl rfl)
  | unlockAlias path =>
      obtain ⟨table, unlocked, rfl⟩ := Option.map_eq_some_iff.mp performed
      obtain ⟨-, rfl⟩ := unlockKey_some unlocked
      exact .of_parts h.keep_images (h.aliases.unlock allowed.1) (h.keep_barrier rfl rfl)
  | beginChange =>
      obtain ⟨free, ⟨⟩⟩ := Option.ite_none_right_eq_some.mp performed
      exact .of_parts h.keep_images h.keep_aliases (h.barrier.beginChange allowed free)
  | endChange =>
      obtain ⟨-, ⟨⟩⟩ := Option.ite_none_right_eq_some.mp performed
      exact .of_parts h.keep_images h.keep_aliases (h.barrier.endChange allowed)
  | announceRebuild =>
      obtain ⟨free, ⟨⟩⟩ := Option.ite_none_right_eq_some.mp performed
      have idle : (ls i).hold = .free := allowed.2.2
      refine .of_parts h.keep_images h.keep_aliases ?_
      exact h.barrier.write (by simp [idle]) (by simp [Ledger.recordSync]) (.inl free)
        (by simp [Ledger.recordSync]) (by simp [Ledger.recordSync]) (.inr ⟨false, rfl⟩) (by simp)
  | beginRebuild =>
      obtain ⟨⟨announced, empty⟩, ⟨⟩⟩ := Option.ite_none_right_eq_some.mp performed
      have waits : (ls i).hold = .waiting := allowed
      refine .of_parts h.keep_images h.keep_aliases ?_
      exact h.barrier.write (by simp [waits]) (by simp [Ledger.recordSync])
        (.inr ⟨false, announced⟩) (by simp [Ledger.recordSync]) (by simp [Ledger.recordSync])
        (.inr ⟨true, rfl⟩) fun _ => empty
  | endRebuild =>
      obtain ⟨entered, ⟨⟩⟩ := Option.ite_none_right_eq_some.mp performed
      have rebuilds : (ls i).hold = .exclusive := allowed
      refine .of_parts h.keep_images h.keep_aliases ?_
      exact h.barrier.write (by simp [rebuilds]) (by simp [Ledger.recordSync])
        (.inr ⟨true, entered⟩) (by simp [Ledger.recordSync]) (by simp [Ledger.recordSync])
        (.inl rfl) (by simp)
  | lockCredentials | lockMutations | unlockCredentials | unlockMutations =>
      obtain ⟨-, ⟨⟩⟩ := Option.ite_none_right_eq_some.mp performed
      exact .of_parts h.keep_images h.keep_aliases (h.keep_barrier rfl rfl)

/-- No action but those on the locks changes what a ledger says of them. -/
theorem step {P : Platform} {σ σ' : State} {a : Action} {c : Choice} {r : Response a}
    (h : Held σ.locks ls) (permitted : (ls i).permits P a)
    (performed : σ.perform P i a c = some (r, σ')) :
    Held σ'.locks (Function.update ls i ((ls i).record P a r)) := by
  cases a with
  | sync s =>
      obtain ⟨locks, done, rfl⟩ := sync_state performed
      exact h.sync permitted.2 done
  | statement q =>
      rw [(perform_frame performed).locks (by simp)]
      obtain ⟨_, _, _, _, _, _, _, _, _, _, _, _, _, _, eq⟩ :=
        recordStatement_frame (P := P) (ls i) q r
      exact h.same (by rw [Ledger.record, eq]) (by rw [Ledger.record, eq]) (by rw [Ledger.record, eq])
  | index s =>
      rw [(perform_frame performed).locks (by simp)]
      obtain ⟨_, _, _, _, eq⟩ := recordIndex_frame (ls i) s
      exact h.same (by rw [Ledger.record, eq]) (by rw [Ledger.record, eq]) (by rw [Ledger.record, eq])
  | file b =>
      rw [(perform_frame performed).locks (by simp)]
      obtain ⟨_, _, _, _, _, _, _, eq⟩ := recordFile_frame (P := P) (ls i) b r
      exact h.same (by rw [Ledger.record, eq]) (by rw [Ledger.record, eq]) (by rw [Ledger.record, eq])
  | newUUID =>
      rw [(perform_frame performed).locks (by simp)]
      cases r with
      | error e => exact h.same rfl rfl rfl
      | ok id => exact h.same rfl rfl rfl
  | _ =>
      rw [(perform_frame performed).locks (by simp)]
      exact h.same rfl rfl rfl

end Held

end ImageSilo.Publication
