import ImageSilo.MigrationImage.Ledger
import ImageSilo.MigrationImage.Removal

/-! There is at most one path by which the cached snapshot and the tree differ. -/
namespace ImageSilo.Migrations.Serving

open Go Storage Delivery Concurrent

section Locks

variable {P} {σ σ' : State} {ls : Nat → Ledger} {i j : Nat} {a : Action} {c : Choice} {r : Response a}

/-- What the mutexes say of one call. -/
structure Stands (σ : State) (i : Nat) (l : Ledger) : Prop where
  owner : ∀ m, σ.owner m = some i ↔ l.holds m = true
  reading : i ∈ σ.readers ↔ l.access = .reading
  announced : σ.writer = some ⟨i, false⟩ ↔ l.access = .announced
  writing : σ.writer = some ⟨i, true⟩ ↔ l.access = .writing

def Locked (σ : State) (ls : Nat → Ledger) : Prop := ∀ i, Stands σ i (ls i)

theorem Locked.single (locked : Locked σ ls) {m : Mutex} (first : (ls i).holds m = true)
    (second : (ls j).holds m = true) : i = j :=
  Option.some.inj ((((locked i).owner m).mpr first).symm.trans (((locked j).owner m).mpr second))

theorem Locked.update (locked : Locked σ ls) {l : Ledger} (self : Stands σ' i l)
    (others : ∀ j, j ≠ i → Stands σ j (ls j) → Stands σ' j (ls j)) :
    Locked σ' (Function.update ls i l) := by
  intro j
  by_cases same : j = i
  · rw [same, Function.update_self]
    exact self
  · rw [Function.update_of_ne same]
    exact others j same (locked j)

/-- The step keeps what the mutexes say. -/
theorem Locked.step (locked : Locked σ ls) (permitted : (ls i).permits P a)
    (performed : σ.perform P i a c = some (r, σ')) :
    Locked σ' (Function.update ls i ((ls i).record a r)) := by
  have here := locked i
  cases a with
  | now =>
      cases performed
      exact locked.update ⟨here.owner, here.reading, here.announced, here.writing⟩ fun _ _ h => h
  | contextErr =>
      cases c with
      | normal =>
          cases performed
          exact locked.update ⟨here.owner, here.reading, here.announced, here.writing⟩ fun _ _ h => h
      | fault =>
          cases performed
          exact locked.update ⟨here.owner, here.reading, here.announced, here.writing⟩ fun _ _ h => h
      | faults f => cases performed
  | lock m =>
      simp only [State.perform, Option.ite_none_right_eq_some, Option.some.injEq, Prod.mk.injEq]
        at performed
      obtain ⟨free, -, rfl⟩ := performed
      refine locked.update ⟨fun m' => ?_, here.reading, here.announced, here.writing⟩ ?_
      · by_cases same : m' = m
        · subst same
          simp [Ledger.record]
        · simpa [Ledger.record, same] using here.owner m'
      · intro j other there
        refine ⟨fun m' => ?_, there.reading, there.announced, there.writing⟩
        by_cases same : m' = m
        · subst same
          have before := there.owner m'
          rw [free] at before
          simpa [Ne.symm other] using before
        · simpa [same] using there.owner m'
  | unlock m =>
      simp only [State.perform, Option.ite_none_right_eq_some, Option.some.injEq, Prod.mk.injEq]
        at performed
      obtain ⟨held, -, rfl⟩ := performed
      refine locked.update ⟨fun m' => ?_, here.reading, here.announced, here.writing⟩ ?_
      · by_cases same : m' = m
        · subst same
          simp [Ledger.record]
        · simpa [Ledger.record, same] using here.owner m'
      · intro j other there
        refine ⟨fun m' => ?_, there.reading, there.announced, there.writing⟩
        by_cases same : m' = m
        · subst same
          have before := there.owner m'
          rw [held] at before
          simpa [Ne.symm other] using before
        · simpa [same] using there.owner m'
  | readLock =>
      simp only [State.perform, Option.ite_none_right_eq_some, Option.some.injEq, Prod.mk.injEq]
        at performed
      obtain ⟨open_, -, rfl⟩ := performed
      refine locked.update ⟨here.owner, ?_, ?_, ?_⟩ ?_
      · simp [Ledger.record]
      · simp [Ledger.record, open_]
      · simp [Ledger.record, open_]
      · intro j other there
        refine ⟨there.owner, ?_, there.announced, there.writing⟩
        simpa [other] using there.reading
  | readUnlock =>
      simp only [State.perform, Option.ite_none_right_eq_some, Option.some.injEq, Prod.mk.injEq]
        at performed
      obtain ⟨inside, -, rfl⟩ := performed
      have reading : (ls i).access = .reading := permitted
      have announced := here.announced
      have writing := here.writing
      rw [reading] at announced writing
      refine locked.update ⟨here.owner, ?_, ?_, ?_⟩ ?_
      · simp [Ledger.record]
      · simpa [Ledger.record] using announced
      · simpa [Ledger.record] using writing
      · intro j other there
        refine ⟨there.owner, ?_, there.announced, there.writing⟩
        simpa [other] using there.reading
  | announce =>
      simp only [State.perform, Option.ite_none_right_eq_some, Option.some.injEq, Prod.mk.injEq]
        at performed
      obtain ⟨open_, -, rfl⟩ := performed
      have free : (ls i).access = .free := permitted
      have reading := here.reading
      rw [free] at reading
      refine locked.update ⟨here.owner, ?_, ?_, ?_⟩ ?_
      · simpa [Ledger.record] using reading
      · simp [Ledger.record]
      · simp [Ledger.record]
      · intro j other there
        have announced := there.announced
        have writing := there.writing
        rw [open_] at announced writing
        refine ⟨there.owner, there.reading, ?_, ?_⟩
        · simpa [Ne.symm other] using announced
        · simpa using writing
  | enter =>
      simp only [State.perform, Option.ite_none_right_eq_some, Option.some.injEq, Prod.mk.injEq]
        at performed
      obtain ⟨⟨mine, none⟩, -, rfl⟩ := performed
      refine locked.update ⟨here.owner, ?_, ?_, ?_⟩ ?_
      · simp [Ledger.record, none]
      · simp [Ledger.record]
      · simp [Ledger.record]
      · intro j other there
        have announced := there.announced
        have writing := there.writing
        rw [mine] at announced writing
        refine ⟨there.owner, there.reading, ?_, ?_⟩
        · simpa [Ne.symm other] using announced
        · simpa [Ne.symm other] using writing
  | leave =>
      simp only [State.perform, Option.ite_none_right_eq_some, Option.some.injEq, Prod.mk.injEq]
        at performed
      obtain ⟨mine, -, rfl⟩ := performed
      have writing : (ls i).access = .writing := permitted
      have reading := here.reading
      rw [writing] at reading
      refine locked.update ⟨here.owner, ?_, ?_, ?_⟩ ?_
      · simpa [Ledger.record] using reading
      · simp [Ledger.record]
      · simp [Ledger.record]
      · intro j other there
        have announced := there.announced
        have writing := there.writing
        rw [mine] at announced writing
        refine ⟨there.owner, there.reading, ?_, ?_⟩
        · simpa [Ne.symm other] using announced
        · simpa [Ne.symm other] using writing
  | load =>
      cases performed
      exact locked.update ⟨here.owner, here.reading, here.announced, here.writing⟩ fun _ _ h => h
  | store snapshot =>
      cases performed
      exact locked.update ⟨here.owner, here.reading, here.announced, here.writing⟩
        fun _ _ h => ⟨h.owner, h.reading, h.announced, h.writing⟩
  | listMigrationImages =>
      cases c with
      | normal =>
          cases performed
          exact locked.update ⟨here.owner, here.reading, here.announced, here.writing⟩ fun _ _ h => h
      | fault =>
          cases performed
          exact locked.update ⟨here.owner, here.reading, here.announced, here.writing⟩ fun _ _ h => h
      | faults f => cases performed
  | removeMigrationImage relativePath =>
      cases c with
      | faults f =>
          obtain ⟨⟨removed, tree⟩, -, same⟩ := Option.map_eq_some_iff.mp performed
          cases same
          exact locked.update ⟨here.owner, here.reading, here.announced, here.writing⟩
            fun _ _ h => ⟨h.owner, h.reading, h.announced, h.writing⟩
      | normal => cases performed
      | fault => cases performed

end Locks

section Mirrors

variable {P} {σ σ' : State} {ls : Nat → Ledger} {i : Nat} {a : Action} {c : Choice} {r : Response a}
  {tree tree' : Tree} {snapshot : Snapshot} {path canonical relativePath : GoString}

/-- The snapshot shows what a scan of the tree finds. -/
structure Fresh (P : Platform) (tree : Tree) (snapshot : Snapshot) : Prop where
  items : snapshot.items = (Migrations.scanSnapshot P tree 0).items
  storedBytes : snapshot.storedBytes = reachedBytes tree

def Unlisted (path : GoString) (items : List Image) : Prop := ∀ item ∈ items, item.path ≠ path

theorem fresh_scan (now : Time) : Fresh P tree (snapshotOf (listMigrationImages P tree)
    ((listMigrationImages P tree).files.filterMap (publicImage P)) now) :=
  ⟨rfl, storedBytes_eq⟩

theorem unlisted_without : Unlisted path (withoutPath snapshot path).items := by
  intro item member
  simpa using (List.mem_filter.mp member).2

theorem withoutPath_unlisted (h : Unlisted path snapshot.items) : withoutPath snapshot path = snapshot := by
  have kept : (snapshot.items.filter fun item => item.path != path) = snapshot.items :=
    List.filter_eq_self.mpr fun item member => by simpa using h item member
  have none : (snapshot.items.filter fun item => item.path == path) = [] :=
    List.filter_eq_nil_iff.mpr fun item member => by simpa using h item member
  unfold withoutPath
  rw [kept, none]
  simp

/-- The update of the cache follows the removal of the file. -/
theorem Fresh.taken {content : Bytes} {modifiedAt : Time} (fresh : Fresh P tree snapshot)
    (taken : Taken tree tree' (split slash relativePath))
    (accepted : normalizeAliasPath P canonical = .ok canonical)
    (decoded : pathUnescape canonical = some (slash :: relativePath))
    (entry : tree.node.lookup (split slash relativePath) = some (.regular content modifiedAt))
    (deliverable : Deliverable P relativePath content) :
    Fresh P tree' (withoutPath snapshot canonical) := by
  have nonempty := (tree.named _ (Tree.mem_keys entry)).1
  have named := (tree.named _ (Tree.mem_keys entry)).2
  have readable : Tree.readable (split slash relativePath) = true := by
    refine readable_valid nonempty named ?_
    rw [join_split]
    exact deliverable.2.1
  have deliverable' : Deliverable P (join slash (split slash relativePath)) content := by
    rw [join_split]
    exact deliverable
  have decoded' : pathUnescape canonical = some (slash :: join slash (split slash relativePath)) := by
    rw [join_split]
    exact decoded
  obtain ⟨item, found, rfl⟩ := item?_of entry deliverable' accepted decoded'
  refine ⟨?_, ?_⟩
  · rw [taken.items accepted decoded, ← fresh.items]
    rfl
  · have listed : item ∈ (Migrations.scanSnapshot P tree 0).items :=
      mem_scan.mpr ⟨_, List.mem_filter.mpr ⟨(Finset.mem_sort _).mpr (Tree.mem_keys entry), readable⟩,
        found⟩
    obtain ⟨-, -, -, size⟩ := item?_fields found entry
    unfold withoutPath
    dsimp only
    rw [taken.reachedBytes entry readable, fresh.items, fresh.storedBytes,
      filter_path scan_distinct listed, List.map_singleton, List.sum_singleton, size]

/-- What a deletion finds gone is not listed. -/
theorem unlisted_missing (decoded : pathUnescape canonical = some (slash :: relativePath))
    (missing : ∀ content modifiedAt,
      tree.node.lookup (split slash relativePath) ≠ some (.regular content modifiedAt)) :
    Unlisted canonical (Migrations.scanSnapshot P tree 0).items := by
  intro item member same
  obtain ⟨path, -, found⟩ := mem_scan.mp member
  have spec := itemOf_item? found
  obtain ⟨content, entry, -⟩ := spec.file
  rw [spec.file_eq same decoded] at entry
  exact missing _ _ entry

/-- One file that has gone since the snapshot was stored can keep it from showing the tree. -/
structure Mirrored (P : Platform) (σ : State) (ls : Nat → Ledger) : Prop where
  guarded : ∀ i, (ls i).listed ≠ none ∨ (∃ path, (ls i).removal = .pending path) →
    (ls i).holds .mutation = true
  listed : ∀ i list, (ls i).listed = some list → list = listMigrationImages P σ.tree
  current : ∀ i snapshot, (ls i).access = .writing → (ls i).known = some snapshot →
    σ.snapshot = some snapshot
  fresh : (∀ i path, (ls i).removal ≠ .pending path) → ∀ snapshot ∈ σ.snapshot,
    Fresh P σ.tree snapshot
  pending : ∀ i path, (ls i).removal = .pending path →
    Unlisted path (Migrations.scanSnapshot P σ.tree 0).items ∧
      ∀ snapshot ∈ σ.snapshot, Fresh P σ.tree (withoutPath snapshot path)
  settled : ∀ i path, (ls i).removal = .settled path →
    Unlisted path (Migrations.scanSnapshot P σ.tree 0).items ∧
      ∀ snapshot ∈ σ.snapshot, Unlisted path snapshot.items

/-- A step that leaves the tree and the snapshot alone, and what the call owes. -/
theorem Mirrored.same (mirrored : Mirrored P σ ls) {l : Ledger} (sameTree : σ'.tree = σ.tree)
    (sameSnapshot : σ'.snapshot = σ.snapshot) (removal : l.removal = (ls i).removal)
    (listed : ∀ list, l.listed = some list → list = listMigrationImages P σ.tree)
    (guarded : l.listed ≠ none ∨ (∃ path, l.removal = .pending path) → l.holds .mutation = true)
    (current : ∀ snapshot, l.access = .writing → l.known = some snapshot →
      σ.snapshot = some snapshot) : Mirrored P σ' (Function.update ls i l) := by
  have owes : ∀ j, (Function.update ls i l j).removal = (ls j).removal := by
    intro j
    by_cases self : j = i
    · rw [self, Function.update_self, removal]
    · rw [Function.update_of_ne self]
  constructor
  · intro j
    by_cases self : j = i
    · rw [self, Function.update_self]
      exact guarded
    · rw [Function.update_of_ne self]
      exact mirrored.guarded j
  · intro j
    rw [sameTree]
    by_cases self : j = i
    · rw [self, Function.update_self]
      exact listed
    · rw [Function.update_of_ne self]
      exact mirrored.listed j
  · intro j
    rw [sameSnapshot]
    by_cases self : j = i
    · rw [self, Function.update_self]
      exact current
    · rw [Function.update_of_ne self]
      exact mirrored.current j
  · rw [sameTree, sameSnapshot]
    intro none
    exact mirrored.fresh fun j path => owes j ▸ none j path
  · rw [sameTree, sameSnapshot]
    intro j path pending
    exact mirrored.pending j path (owes j ▸ pending)
  · rw [sameTree, sameSnapshot]
    intro j path settled
    exact mirrored.settled j path (owes j ▸ settled)

/-- Who holds the mutation mutex is alone with what only its holder may know. -/
theorem Mirrored.others (mirrored : Mirrored P σ ls) (locked : Locked σ ls)
    (mutates : (ls i).holds .mutation = true) {j : Nat} (other : j ≠ i) :
    (ls j).listed = none ∧ ∀ path, (ls j).removal ≠ .pending path := by
  have outside : ¬ ((ls j).listed ≠ none ∨ ∃ path, (ls j).removal = .pending path) :=
    fun inside => other (locked.single (mirrored.guarded j inside) mutates)
  push Not at outside
  exact outside

/-- A step of the holder of the mutation mutex. -/
theorem Mirrored.change (mirrored : Mirrored P σ ls) (locked : Locked σ ls)
    (mutates : (ls i).holds .mutation = true) {l : Ledger} (holds : l.holds .mutation = true)
    (listed : ∀ list, l.listed = some list → list = listMigrationImages P σ'.tree)
    (current : ∀ j snapshot, (Function.update ls i l j).access = .writing →
      (Function.update ls i l j).known = some snapshot → σ'.snapshot = some snapshot)
    (fresh : (∀ path, l.removal ≠ .pending path) → ∀ snapshot ∈ σ'.snapshot, Fresh P σ'.tree snapshot)
    (pending : ∀ path, l.removal = .pending path →
      Unlisted path (Migrations.scanSnapshot P σ'.tree 0).items ∧
        ∀ snapshot ∈ σ'.snapshot, Fresh P σ'.tree (withoutPath snapshot path))
    (settled : ∀ path, l.removal = .settled path →
      Unlisted path (Migrations.scanSnapshot P σ'.tree 0).items ∧
        ∀ snapshot ∈ σ'.snapshot, Unlisted path snapshot.items)
    (kept : ∀ path, Unlisted path (Migrations.scanSnapshot P σ.tree 0).items →
      (∀ snapshot ∈ σ.snapshot, Unlisted path snapshot.items) →
        Unlisted path (Migrations.scanSnapshot P σ'.tree 0).items ∧
          ∀ snapshot ∈ σ'.snapshot, Unlisted path snapshot.items) :
    Mirrored P σ' (Function.update ls i l) where
  guarded j := by
    by_cases self : j = i
    · rw [self, Function.update_self]
      exact fun _ => holds
    · rw [Function.update_of_ne self]
      exact mirrored.guarded j
  listed j list known := by
    by_cases self : j = i
    · rw [self, Function.update_self] at known
      exact listed list known
    · rw [Function.update_of_ne self, (mirrored.others locked mutates self).1] at known
      cases known
  current := current
  fresh none := by
    refine fresh fun path => ?_
    have own := none i path
    rwa [Function.update_self] at own
  pending j path owed := by
    by_cases self : j = i
    · rw [self, Function.update_self] at owed
      exact pending path owed
    · rw [Function.update_of_ne self] at owed
      exact absurd owed ((mirrored.others locked mutates self).2 path)
  settled j path owed := by
    by_cases self : j = i
    · rw [self, Function.update_self] at owed
      exact settled path owed
    · rw [Function.update_of_ne self] at owed
      obtain ⟨gone, hidden⟩ := mirrored.settled j path owed
      exact kept path gone hidden

/-- The holder owes nothing, so the snapshot shows the tree. -/
theorem Mirrored.fresh_of_holder (mirrored : Mirrored P σ ls) (locked : Locked σ ls)
    (mutates : (ls i).holds .mutation = true) (told : ∀ path, (ls i).removal ≠ .pending path) :
    ∀ snapshot ∈ σ.snapshot, Fresh P σ.tree snapshot := by
  refine mirrored.fresh fun j path => ?_
  by_cases self : j = i
  · rw [self]
    exact told path
  · exact (mirrored.others locked mutates self).2 path

theorem Mirrored.load (mirrored : Mirrored P σ ls) (locked : Locked σ ls) :
    Mirrored P σ (Function.update ls i ((ls i).record .load σ.snapshot)) := by
  by_cases settles : (∃ path, (ls i).removal = .pending path) ∧ (ls i).access = .writing ∧
      σ.snapshot.isNone
  · obtain ⟨⟨path, pending⟩, writing, empty⟩ := settles
    have mutates := mirrored.guarded i (.inr ⟨path, pending⟩)
    have none : σ.snapshot = none := Option.isNone_iff_eq_none.mp empty
    have gone := (mirrored.pending i path pending).1
    have removal : ((ls i).record .load σ.snapshot).removal = .settled path := by
      simp [Ledger.record, writing, none, pending, Removal.settle]
    refine mirrored.change locked mutates mutates (mirrored.listed i) ?_ ?_ ?_ ?_
      fun _ first second => ⟨first, second⟩
    · intro j snapshot
      by_cases self : j = i
      · rw [self, Function.update_self]
        exact fun _ known => known
      · rw [Function.update_of_ne self]
        exact mirrored.current j snapshot
    · rw [none]
      exact fun _ _ same => by cases same
    · rw [removal]
      exact fun _ same => by cases same
    · rw [removal]
      rintro _ ⟨⟩
      rw [none]
      exact ⟨gone, fun _ same => by cases same⟩
  · have removal : ((ls i).record .load σ.snapshot).removal = (ls i).removal := by
      change (if _ then _ else _) = _
      split
      · rename_i both
        cases owed : (ls i).removal with
        | pending path => exact absurd ⟨⟨path, owed⟩, both⟩ settles
        | none => rfl
        | settled path => rfl
      · rfl
    refine mirrored.same rfl rfl removal (mirrored.listed i) ?_ fun _ _ known => known
    rw [removal]
    exact mirrored.guarded i

theorem Mirrored.store (mirrored : Mirrored P σ ls) (locked : Locked σ ls)
    (writing : (ls i).access = .writing) (mutates : (ls i).holds .mutation = true)
    (shows : Fresh P σ.tree snapshot)
    (hides : ∀ path, (ls i).removal.settle = .settled path → Unlisted path snapshot.items)
    (keeps : ∀ path, Unlisted path (Migrations.scanSnapshot P σ.tree 0).items →
      Unlisted path snapshot.items) :
    Mirrored P { σ with snapshot := some snapshot }
      (Function.update ls i ((ls i).record (.store snapshot) ())) := by
  refine mirrored.change locked mutates mutates (mirrored.listed i) ?_ ?_ ?_ ?_ ?_
  · intro j other
    by_cases self : j = i
    · rw [self, Function.update_self]
      exact fun _ known => known
    · rw [Function.update_of_ne self]
      intro writing'
      have first := ((locked i).writing).mpr writing
      have second := ((locked j).writing).mpr writing'
      rw [first] at second
      cases second
      exact absurd rfl self
  · rintro - _ ⟨⟩
    exact shows
  · intro path owed
    change (ls i).removal.settle = _ at owed
    cases before : (ls i).removal with
    | none =>
        rw [before] at owed
        cases owed
    | pending other =>
        rw [before] at owed
        cases owed
    | settled other =>
        rw [before] at owed
        cases owed
  · intro path owed
    refine ⟨?_, ?_⟩
    · rw [← shows.items]
      exact hides path owed
    · rintro _ ⟨⟩
      exact hides path owed
  · rintro path gone -
    refine ⟨gone, ?_⟩
    rintro _ ⟨⟩
    exact keeps path gone

theorem Mirrored.remove {faults : Faults} {fuel : Nat} {rawPath : GoString}
    {removed : Except RemoveError MigrationDeleteResult} (mirrored : Mirrored P σ ls)
    (locked : Locked σ ls) (mutates : (ls i).holds .mutation = true) (unlisted : (ls i).listed = none)
    (keeps : (ls i).removal = Removal.none)
    (normal : normalizeImagePath P rawPath = some (canonical, relativePath))
    (target : (ls i).target = some (canonical, relativePath))
    (enough : (split slash relativePath).length ≤ fuel)
    (performed : faults.removeMigrationImage fuel P σ.tree relativePath = some (removed, tree')) :
    Mirrored P { σ with tree := tree' }
      (Function.update ls i ((ls i).record (.removeMigrationImage relativePath) removed)) := by
  obtain ⟨accepted, decoded, -⟩ := normalizeImagePath_some normal
  have told : ∀ path, (ls i).removal ≠ .pending path := by
    rw [keeps]
    exact fun _ same => by cases same
  have shows := mirrored.fresh_of_holder locked mutates told
  have current : ∀ j snapshot,
      (Function.update ls i ((ls i).record (.removeMigrationImage relativePath) removed) j).access =
        .writing →
      (Function.update ls i ((ls i).record (.removeMigrationImage relativePath) removed) j).known =
        some snapshot → σ.snapshot = some snapshot := by
    intro j
    by_cases self : j = i
    · rw [self, Function.update_self]
      exact mirrored.current i
    · rw [Function.update_of_ne self]
      exact mirrored.current j
  have listed : ∀ list, ((ls i).record (.removeMigrationImage relativePath) removed).listed =
      some list → list = listMigrationImages P tree' := by
    intro list known
    change (ls i).listed = some list at known
    rw [unlisted] at known
    cases known
  have owing : ((ls i).record (.removeMigrationImage relativePath) removed).removal =
      .pending canonical → Unlisted canonical (Migrations.scanSnapshot P tree' 0).items →
      (∀ snapshot ∈ σ.snapshot, Fresh P tree' (withoutPath snapshot canonical)) →
      (∀ path, Unlisted path (Migrations.scanSnapshot P σ.tree 0).items →
        Unlisted path (Migrations.scanSnapshot P tree' 0).items) →
      Mirrored P { σ with tree := tree' }
        (Function.update ls i ((ls i).record (.removeMigrationImage relativePath) removed)) := by
    intro owed gone follows shrinks
    refine mirrored.change locked mutates mutates listed current ?_ ?_ ?_ ?_
    · exact fun none => absurd owed (none canonical)
    · rw [owed]
      rintro _ ⟨⟩
      exact ⟨gone, follows⟩
    · rw [owed]
      exact fun _ same => by cases same
    · exact fun path first second => ⟨shrinks path first, second⟩
  rcases removeMigrationImage_cases P faults σ.tree relativePath with ⟨-, e, run⟩ |
    ⟨⟨-, content, modifiedAt, entry, deliverable⟩, result, current', kept, pruned, run⟩
  · -- nothing has been removed
    rw [run fuel] at performed
    obtain ⟨rfl, rfl⟩ : Except.error e = removed ∧ σ.tree = tree' := by simpa using performed
    by_cases missing : e = .notExist
    · subst missing
      have gone : Unlisted canonical (Migrations.scanSnapshot P σ.tree 0).items :=
        unlisted_missing decoded fun content modifiedAt entry => removal_found entry (run fuel)
      refine owing (by simp [Ledger.record, target]) gone ?_ fun _ h => h
      intro snapshot there
      have fresh := shows snapshot there
      rw [withoutPath_unlisted (by rw [fresh.items]; exact gone)]
      exact fresh
    · have same : (ls i).record (.removeMigrationImage relativePath) (.error e) = ls i := by
        cases e with
        | notExist => exact absurd rfl missing
        | unsafePath => rfl
        | notEmpty => rfl
        | failed => rfl
      rw [same, Function.update_eq_self]
      exact mirrored
  · rw [run fuel enough] at performed
    obtain ⟨rfl, rfl⟩ : Except.ok result = removed ∧ current' = tree' := by simpa using performed
    have taken := taken_of_pruned entry pruned
    have shrinks : ∀ path, Unlisted path (Migrations.scanSnapshot P σ.tree 0).items →
        Unlisted path (Migrations.scanSnapshot P current' 0).items := by
      intro path hidden item member
      rw [taken.items accepted decoded] at member
      exact hidden item (List.mem_filter.mp member).1
    refine owing (by simp [Ledger.record, target]) ?_ ?_ shrinks
    · rw [taken.items accepted decoded]
      intro item member
      simpa using (List.mem_filter.mp member).2
    · intro snapshot there
      exact (shows snapshot there).taken taken accepted decoded entry deliverable

theorem Mirrored.step (mirrored : Mirrored P σ ls) (locked : Locked σ ls)
    (permitted : (ls i).permits P a) (performed : σ.perform P i a c = some (r, σ')) :
    Mirrored P σ' (Function.update ls i ((ls i).record a r)) := by
  have listed := mirrored.listed i
  have guarded := mirrored.guarded i
  have current := mirrored.current i
  cases a with
  | now =>
      cases performed
      exact mirrored.same rfl rfl rfl listed guarded current
  | contextErr =>
      cases c with
      | normal =>
          cases performed
          exact mirrored.same rfl rfl rfl listed guarded current
      | fault =>
          cases performed
          exact mirrored.same rfl rfl rfl listed guarded current
      | faults f => cases performed
  | lock m =>
      simp only [State.perform, Option.ite_none_right_eq_some, Option.some.injEq, Prod.mk.injEq]
        at performed
      obtain ⟨free, -, rfl⟩ := performed
      refine mirrored.same rfl rfl rfl listed ?_ current
      intro inside
      by_cases same : m = .mutation
      · rw [same]
        exact Ledger.holds_locked
      · exact (Ledger.locked_other (Ne.symm same)).trans (guarded inside)
  | unlock m =>
      simp only [State.perform, Option.ite_none_right_eq_some, Option.some.injEq, Prod.mk.injEq]
        at performed
      obtain ⟨held, -, rfl⟩ := performed
      refine mirrored.same rfl rfl rfl (fun _ same => by cases same) ?_ current
      rintro (listed | ⟨path, owed⟩)
      · exact absurd rfl listed
      · exact absurd owed (permitted.2 path)
  | readLock =>
      simp only [State.perform, Option.ite_none_right_eq_some, Option.some.injEq, Prod.mk.injEq]
        at performed
      obtain ⟨-, -, rfl⟩ := performed
      exact mirrored.same rfl rfl rfl listed guarded fun _ same => by cases same
  | readUnlock =>
      simp only [State.perform, Option.ite_none_right_eq_some, Option.some.injEq, Prod.mk.injEq]
        at performed
      obtain ⟨-, -, rfl⟩ := performed
      exact mirrored.same rfl rfl rfl listed guarded fun _ same => by cases same
  | announce =>
      simp only [State.perform, Option.ite_none_right_eq_some, Option.some.injEq, Prod.mk.injEq]
        at performed
      obtain ⟨-, -, rfl⟩ := performed
      exact mirrored.same rfl rfl rfl listed guarded fun _ same => by cases same
  | enter =>
      simp only [State.perform, Option.ite_none_right_eq_some, Option.some.injEq, Prod.mk.injEq]
        at performed
      obtain ⟨-, -, rfl⟩ := performed
      exact mirrored.same rfl rfl rfl listed guarded fun _ _ same => by cases same
  | leave =>
      simp only [State.perform, Option.ite_none_right_eq_some, Option.some.injEq, Prod.mk.injEq]
        at performed
      obtain ⟨-, -, rfl⟩ := performed
      exact mirrored.same rfl rfl rfl listed guarded fun _ same => by cases same
  | load =>
      cases performed
      exact mirrored.load locked
  | store snapshot =>
      cases performed
      obtain ⟨writing, mutates, ⟨list, now, known, keeps, rfl⟩ | ⟨old, path, known, owed, rfl⟩⟩ :=
        permitted
      · have shows : Fresh P σ.tree
            (snapshotOf list (list.files.filterMap (publicImage P)) now) := by
          rw [listed list known]
          exact fresh_scan now
        refine mirrored.store locked writing mutates shows ?_ ?_
        · rw [keeps]
          exact fun _ same => by cases same
        · intro path gone
          rw [shows.items]
          exact gone
      · have there := current old writing known
        obtain ⟨-, follows⟩ := mirrored.pending i path owed
        have shows := follows old there
        refine mirrored.store locked writing mutates shows ?_ ?_
        · rw [owed]
          rintro _ ⟨⟩
          exact unlisted_without
        · intro other gone
          rw [shows.items]
          exact gone
  | listMigrationImages =>
      cases c with
      | normal =>
          cases performed
          refine mirrored.same rfl rfl rfl ?_ (fun _ => permitted) current
          rintro _ ⟨⟩
          rfl
      | fault =>
          cases performed
          exact mirrored.same rfl rfl rfl (fun _ same => by cases same) (fun _ => permitted) current
      | faults f => cases performed
  | removeMigrationImage relativePath =>
      cases c with
      | faults f =>
          obtain ⟨⟨removed, tree⟩, ran, same⟩ := Option.map_eq_some_iff.mp performed
          cases same
          obtain ⟨mutates, unlisted, keeps, rawPath, canonical, normal, target⟩ := permitted
          exact mirrored.remove locked mutates unlisted keeps normal target le_rfl ran
      | normal => cases performed
      | fault => cases performed

end Mirrors

end ImageSilo.Migrations.Serving
