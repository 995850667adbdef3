import ImageSilo.Concurrent.LockOrder
import ImageSilo.Publication.Locking

/-! Image locks come first, then path locks, then the two mutexes of the accounts, and the rebuild lock
last. -/
namespace ImageSilo

open Go Concurrent Tables Publication

inductive Lock
  | image (id : GoString)
  | path (path : GoString)
  | credentials
  | mutations
  | shared
  | announced
  | exclusive

def Lock.level : Lock → Nat
  | .image _ => 0
  | .path _ => 1
  | .credentials | .mutations => 2
  | .shared | .announced => 3
  | .exclusive => 4

def Sync.takes : Sync → Option Lock
  | .lockImage id => some (.image id)
  | .lockAlias path => some (.path path)
  | .lockCredentials => some .credentials
  | .lockMutations => some .mutations
  | .beginChange => some .shared
  | .announceRebuild => some .announced
  | .beginRebuild => some .exclusive
  | _ => none

def Sync.gives : Sync → Option Lock
  | .unlockImage id => some (.image id)
  | .unlockAlias path => some (.path path)
  | .unlockCredentials => some .credentials
  | .unlockMutations => some .mutations
  | .endChange => some .shared
  | .beginRebuild => some .announced
  | .endRebuild => some .exclusive
  | _ => none

/-- Whoever wants the first lock waits for the holders of the second. -/
def Lock.Excludes : Lock → Lock → Prop
  | .shared, held | .announced, held => held = .announced ∨ held = .exclusive
  | .exclusive, held => held = .shared
  | wanted, held => wanted = held

def Locks.Owns (l : Locks) (call : Nat) : Lock → Prop
  | .image id => l.images.lookup id = some call
  | .path path => l.aliases.lookup path = some call
  | .credentials => l.credentials = some call
  | .mutations => l.mutations = some call
  | .shared => call ∈ l.readers
  | .announced => l.writer = some ⟨call, false⟩
  | .exclusive => l.writer = some ⟨call, true⟩

section Tables

variable {table table' : LockTable} {i j : Nat} {key k : GoString}

theorem lockKey_owner (locked : lockKey table i key = some table') :
    table'.lookup k = some j ↔ (j = i ∧ key = k) ∨ table.lookup k = some j := by
  obtain ⟨free, rfl⟩ := lockKey_some locked
  rw [lookup_insert_ite]
  by_cases same : k = key
  · subst same
    simp [free, eq_comm]
  · simp [same, Ne.symm same]

theorem unlockKey_owner (unlocked : unlockKey table i key = some table') :
    table'.lookup k = some j ↔ table.lookup k = some j ∧ ¬(j = i ∧ key = k) := by
  obtain ⟨mine, rfl⟩ := unlockKey_some unlocked
  rw [lookup_erase_ite]
  by_cases same : k = key
  · subst same
    simp only [mine, Option.some.injEq]
    simp [eq_comm]
  · simp [same, Ne.symm same]

theorem lockKey_none (blocked : lockKey table i key = none) : ∃ j, table.lookup key = some j := by
  unfold lockKey at blocked
  split at blocked
  · cases blocked
  · rename_i taken
    exact Option.ne_none_iff_exists'.mp (by simpa using taken)

theorem unlockKey_none (blocked : unlockKey table i key = none) : table.lookup key ≠ some i := by
  unfold unlockKey at blocked
  split at blocked
  · cases blocked
  · rename_i other
    exact other

end Tables

namespace Locks

variable {l l' : Locks} {i : Nat} {s : Sync}

theorem moved (performed : l.perform i s = some l') (j : Nat) (k : Lock) : l'.Owns j k ↔
    if j = i then s.takes = some k ∨ l.Owns i k ∧ s.gives ≠ some k else l.Owns j k := by
  have turned : i = j ↔ j = i := eq_comm
  cases s with
  | lockImage id =>
      obtain ⟨table, locked, rfl⟩ := Option.map_eq_some_iff.mp performed
      cases k <;> by_cases self : j = i <;>
        simp [Owns, Sync.takes, Sync.gives, self, lockKey_owner locked]
  | unlockImage id =>
      obtain ⟨table, unlocked, rfl⟩ := Option.map_eq_some_iff.mp performed
      cases k <;> by_cases self : j = i <;>
        simp [Owns, Sync.takes, Sync.gives, self, unlockKey_owner unlocked]
  | lockAlias path =>
      obtain ⟨table, locked, rfl⟩ := Option.map_eq_some_iff.mp performed
      cases k <;> by_cases self : j = i <;>
        simp [Owns, Sync.takes, Sync.gives, self, lockKey_owner locked]
  | unlockAlias path =>
      obtain ⟨table, unlocked, rfl⟩ := Option.map_eq_some_iff.mp performed
      cases k <;> by_cases self : j = i <;>
        simp [Owns, Sync.takes, Sync.gives, self, unlockKey_owner unlocked]
  | beginChange | endChange =>
      obtain ⟨free, ⟨⟩⟩ := Option.ite_none_right_eq_some.mp performed
      cases k <;> by_cases self : j = i <;> simp [Owns, Sync.takes, Sync.gives, self]
  | announceRebuild | endRebuild | lockCredentials | lockMutations | unlockCredentials
  | unlockMutations =>
      obtain ⟨was, ⟨⟩⟩ := Option.ite_none_right_eq_some.mp performed
      cases k <;> by_cases self : j = i <;>
        simp [Owns, Sync.takes, Sync.gives, self, was, turned]
  | beginRebuild =>
      obtain ⟨⟨was, -⟩, ⟨⟩⟩ := Option.ite_none_right_eq_some.mp performed
      cases k <;> by_cases self : j = i <;>
        simp [Owns, Sync.takes, Sync.gives, self, was, turned]

/-- Only a lock that somebody has makes a call wait. -/
theorem stuck (none : l.perform i s = none) (own : ∀ k ∈ s.gives, l.Owns i k) :
    ∃ k h j, s.takes = some k ∧ k.Excludes h ∧ l.Owns j h := by
  have writing : l.writer ≠ .none → ∃ h j, (h = .announced ∨ h = .exclusive) ∧ l.Owns j h := by
    intro some
    obtain ⟨⟨j, entered⟩, writer⟩ := Option.ne_none_iff_exists'.mp some
    cases entered with
    | false => exact ⟨.announced, j, .inl rfl, writer⟩
    | true => exact ⟨.exclusive, j, .inr rfl, writer⟩
  cases s with
  | lockImage id =>
      obtain ⟨j, locked⟩ := lockKey_none (Option.map_eq_none_iff.mp none)
      exact ⟨.image id, .image id, j, rfl, rfl, locked⟩
  | lockAlias path =>
      obtain ⟨j, locked⟩ := lockKey_none (Option.map_eq_none_iff.mp none)
      exact ⟨.path path, .path path, j, rfl, rfl, locked⟩
  | unlockImage id => exact absurd (own (.image id) rfl) (unlockKey_none (Option.map_eq_none_iff.mp none))
  | unlockAlias path => exact absurd (own (.path path) rfl) (unlockKey_none (Option.map_eq_none_iff.mp none))
  | beginChange =>
      obtain ⟨h, j, sides, owned⟩ := writing fun free => by simp [perform, free] at none
      exact ⟨.shared, h, j, rfl, sides, owned⟩
  | announceRebuild =>
      obtain ⟨h, j, sides, owned⟩ := writing fun free => by simp [perform, free] at none
      exact ⟨.announced, h, j, rfl, sides, owned⟩
  | beginRebuild =>
      have waiting : l.writer = some ⟨i, false⟩ := own .announced rfl
      have readers : l.readers.Nonempty := by
        rw [Finset.nonempty_iff_ne_empty]
        intro empty
        simp [perform, waiting, empty] at none
      obtain ⟨j, reading⟩ := readers
      exact ⟨.exclusive, .shared, j, rfl, rfl, reading⟩
  | lockCredentials =>
      have taken : l.credentials ≠ .none := fun free => by simp [perform, free] at none
      obtain ⟨j, held⟩ := Option.ne_none_iff_exists'.mp taken
      exact ⟨.credentials, .credentials, j, rfl, rfl, held⟩
  | lockMutations =>
      have taken : l.mutations ≠ .none := fun free => by simp [perform, free] at none
      obtain ⟨j, held⟩ := Option.ne_none_iff_exists'.mp taken
      exact ⟨.mutations, .mutations, j, rfl, rfl, held⟩
  | endChange =>
      have held : i ∈ l.readers := own .shared rfl
      simp [perform, held] at none
  | endRebuild =>
      have held : l.writer = some ⟨i, true⟩ := own .exclusive rfl
      simp [perform, held] at none
  | unlockCredentials =>
      have held : l.credentials = some i := own .credentials rfl
      simp [perform, held] at none
  | unlockMutations =>
      have held : l.mutations = some i := own .mutations rfl
      simp [perform, held] at none

end Locks

/-- Nothing but a lock makes a call wait: a failure is always possible. -/
theorem perform_possible (P : Platform) (σ : State) (i : Nat) {a : Action} (other : ∀ s, a ≠ .sync s) :
    ∃ c answer, σ.perform P i a c = some answer := by
  cases a with
  | sync s => exact absurd rfl (other s)
  | file b =>
      cases b with
      | transform source output plan options limits => exact ⟨.processed none none, _, rfl⟩
      | thumbnail source output => exact ⟨.processed none none, _, rfl⟩
      | _ => exact ⟨.fault, _, rfl⟩
  | _ => exact ⟨.fault, _, rfl⟩

def Action.takes : Action → Option Lock
  | .sync s => s.takes
  | _ => none

def Action.gives : Action → Option Lock
  | .sync s => s.gives
  | _ => none

variable (P : Platform)

theorem perform_owns {i : Nat} {a : Action} {c : Choice} {σ σ' : State} {r : Response a}
    (performed : σ.perform P i a c = some (r, σ')) (j : Nat) (k : Lock) : σ'.locks.Owns j k ↔
      if j = i then a.takes = some k ∨ σ.locks.Owns i k ∧ a.gives ≠ some k
      else σ.locks.Owns j k := by
  by_cases about : ∃ s, a = .sync s
  · obtain ⟨s, rfl⟩ := about
    obtain ⟨locks, done, rfl⟩ := sync_state performed
    exact Locks.moved done j k
  · have other : ∀ s, a ≠ .sync s := fun s same => about ⟨s, same⟩
    rw [(perform_frame performed).locks other]
    cases a with
    | sync s => exact absurd rfl (other s)
    | _ => by_cases self : j = i <;> simp [self, Action.takes, Action.gives]

abbrev locking : Locking (machine P) where
  Lock := Lock
  level := Lock.level
  top := 5
  takes := Action.takes
  gives := Action.gives
  Excludes := Lock.Excludes
  Owns σ i k := σ.locks.Owns i k
  below k := by cases k <;> simp [Lock.level]
  moved := perform_owns P
  stuck := by
    intro i a σ none own
    by_cases about : ∃ s, a = .sync s
    · obtain ⟨s, rfl⟩ := about
      exact Locks.stuck (Option.map_eq_none_iff.mp (none .normal)) own
    · obtain ⟨c, answer, possible⟩ := perform_possible P σ i fun s same => about ⟨s, same⟩
      cases (none c).symm.trans possible
  still := by
    rintro σ σ' ⟨t, -, rfl⟩ i k
    exact Iff.rfl
  dropped := by
    rintro σ σ' ⟨t, -, rfl⟩ i k
    cases k <;> simp [Locks.Owns, Locks.free]

end ImageSilo
