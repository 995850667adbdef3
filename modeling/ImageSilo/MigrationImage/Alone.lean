import ImageSilo.Concurrent.Solo
import ImageSilo.MigrationImage.Serving

/-! A call of the migration service that meets no fault and no other call answers as the service without
mutexes does. -/
namespace ImageSilo.Migrations.Serving

open Go Storage Concurrent

variable {P : Platform} {σ : State} {i : Nat} {enabled : Bool}

/-- The choices of a file system without faults. -/
def plain : Action → Choice
  | .removeMigrationImage _ => .faults Faults.none
  | _ => .normal

structure State.Free (σ : State) : Prop where
  owner : σ.owner = fun _ => none
  readers : σ.readers = ∅
  writer : σ.writer = none

/-- The answer of the service without mutexes, with the tree and the service after it. -/
def Request.sequential (P : Platform) (tree : Tree) (now : Time) (s : Service) :
    Request → Outcome × Tree × Service
  | .search filter =>
      let (page, s) := Migrations.search P tree now filter s
      (page.elim .invalidListFilter .page, tree, s)
  | .refresh => (.refreshed, tree, Migrations.refresh P tree now s)
  | .storedBytes =>
      let (snapshot, s) := Migrations.loadSnapshot P tree now false s
      (.storedBytes snapshot.storedBytes, tree, s)
  | .delete rawPath =>
      let (result, tree, s) := Migrations.delete P tree rawPath s
      (match result with
        | .ok result => .deleted result
        | .error e => .refused e, tree, s)

theorem alone_publicImages (files : List MigrationFile) :
    (machine P).alone i plain (publicImages P files) σ =
      some (some (files.filterMap (publicImage P)), σ) := by
  induction files with
  | nil => rfl
  | cons file files ih =>
      rw [publicImages, Machine.alone_bind]
      change ((machine P).alone i plain (publicImages P files >>= fun images =>
        pure (images.map ((publicImage P file).toList ++ ·))) σ) = _
      rw [Machine.alone_bind, ih, List.filterMap_cons]
      cases publicImage P file <;> rfl

theorem alone_scanSnapshot : (machine P).alone i plain (scanSnapshot P) σ =
    some (some (Migrations.scanSnapshot P σ.tree σ.clock), σ) := by
  rw [scanSnapshot, Machine.alone_bind]
  change (machine P).alone i plain (publicImages P (listMigrationImages P σ.tree).files >>= _) σ = _
  rw [Machine.alone_bind, alone_publicImages]
  rfl

theorem alone_freshSnapshot (readers : σ.readers = ∅) (writer : σ.writer = none) : (machine P).alone i plain freshSnapshot σ =
    some (Migrations.freshSnapshot ⟨enabled, σ.snapshot⟩ σ.clock, σ) := by
  obtain ⟨tree, snapshot, owner, readers, writer, clock⟩ := σ
  subst readers writer
  simp [freshSnapshot, State.perform, Migrations.freshSnapshot]

theorem alone_usableSnapshot (readers : σ.readers = ∅) (writer : σ.writer = none) (force : Bool) :
    (machine P).alone i plain (usableSnapshot force) σ =
      some (if force then none else Migrations.freshSnapshot ⟨enabled, σ.snapshot⟩ σ.clock, σ) := by
  cases force with
  | true => rfl
  | false => exact alone_freshSnapshot readers writer

theorem alone_rescan (free : σ.owner .mutation = none) (readers : σ.readers = ∅)
    (writer : σ.writer = none) : (machine P).alone i plain (rescan P) σ =
      some (some (Migrations.scanSnapshot P σ.tree σ.clock),
        { σ with snapshot := some (Migrations.scanSnapshot P σ.tree σ.clock) }) := by
  obtain ⟨tree, snapshot, owner, readers, writer, clock⟩ := σ
  subst readers writer
  change owner .mutation = none at free
  have back : Function.update owner .mutation none = owner := by
    rw [← free]
    exact Function.update_eq_self ..
  simp [rescan, State.perform, alone_scanSnapshot, free, back]

/-- What `loadSnapshot` leaves behind, apart from the mutexes. -/
theorem alone_loadSnapshot (free : σ.Free) (force : Bool) :
    (machine P).alone i plain (loadSnapshot P force) σ =
      some (some (Migrations.loadSnapshot P σ.tree σ.clock force ⟨enabled, σ.snapshot⟩).1,
        { σ with
          snapshot := (Migrations.loadSnapshot P σ.tree σ.clock force ⟨enabled, σ.snapshot⟩).2.snapshot }) := by
  obtain ⟨tree, snapshot, owner, readers, writer, clock⟩ := σ
  obtain ⟨rfl, rfl, rfl⟩ := free
  rw [loadSnapshot, Machine.alone_bind, @alone_usableSnapshot P _ i enabled rfl rfl]
  cases usable : (if force then none else
      Migrations.freshSnapshot ⟨enabled, snapshot⟩ clock : Option Snapshot) with
  | some fresh =>
      cases force with
      | true => cases usable
      | false =>
          change Migrations.freshSnapshot ⟨enabled, snapshot⟩ clock = some fresh at usable
          simp [Migrations.loadSnapshot, usable]
  | none =>
      have scans : Migrations.loadSnapshot P tree clock force ⟨enabled, snapshot⟩ =
          (Migrations.scanSnapshot P tree clock,
            ⟨enabled, some (Migrations.scanSnapshot P tree clock)⟩) := by
        cases force with
        | true => rfl
        | false =>
            change Migrations.freshSnapshot ⟨enabled, snapshot⟩ clock = none at usable
            simp [Migrations.loadSnapshot, usable]
      have usable' : (if force then none else Migrations.freshSnapshot
          ⟨enabled, snapshot⟩ clock : Option Snapshot) = none := usable
      simp [scans, State.perform, loadLocked, @alone_usableSnapshot P _ i enabled, alone_rescan,
        usable']

theorem alone_acceptedImages (filter : ListFilter) (images : List Image) :
    (machine P).alone i plain (acceptedImages P filter images) σ =
      some (some (images.filter (accepts P filter)), σ) := by
  induction images with
  | nil => rfl
  | cons image images ih =>
      rw [acceptedImages, Machine.alone_bind]
      change ((machine P).alone i plain (acceptedImages P filter images >>= fun rest =>
        pure (rest.map fun rest => if accepts P filter image then image :: rest else rest)) σ) = _
      rw [Machine.alone_bind, ih, List.filter_cons]
      rfl

theorem alone_pageFrom (free : σ.Free) (filter : ListFilter) (cursor : Option ListCursor) :
    (machine P).alone i plain (pageFrom P enabled filter cursor) σ =
      let (snapshot, s) := Migrations.loadSnapshot P σ.tree σ.clock false ⟨enabled, σ.snapshot⟩
      let items := snapshot.items.filter (accepts P filter)
      let items := match cursor with
        | some cursor => afterCursor items cursor
        | none => items
      some (.page (page items (effectiveLimit filter.limit) snapshot enabled),
        { σ with snapshot := s.snapshot }) := by
  rw [pageFrom, Machine.alone_bind, @alone_loadSnapshot P σ i enabled free]
  simp only [Option.bind_some, Machine.alone_bind, alone_acceptedImages]
  cases cursor <;> rfl

theorem loadSnapshot_enabled (tree : Tree) (now : Time) (force : Bool) (s : Service) :
    (Migrations.loadSnapshot P tree now force s).2.mutationsEnabled = s.mutationsEnabled := by
  unfold Migrations.loadSnapshot
  split <;> rfl

theorem alone_removeCachedPath (readers : σ.readers = ∅) (writer : σ.writer = none) (path : GoString) :
    (machine P).alone i plain (removeCachedPath path) σ =
      some ((), { σ with
        snapshot := (Migrations.removeCachedPath ⟨enabled, σ.snapshot⟩ path).snapshot }) := by
  obtain ⟨tree, snapshot, owner, readers, writer, clock⟩ := σ
  subst readers writer
  cases snapshot with
  | none => simp [removeCachedPath, State.perform, Migrations.removeCachedPath]
  | some snapshot =>
      simp [removeCachedPath, State.perform, Migrations.removeCachedPath, withoutPath]

/-- A call alone is the call of the service without mutexes. -/
theorem program_alone (free : σ.Free) (request : Request) :
    (machine P).alone i plain (program P enabled request) σ =
      let (v, tree, s) := request.sequential P σ.tree σ.clock ⟨enabled, σ.snapshot⟩
      some (v, { σ with tree := tree, snapshot := s.snapshot }) := by
  cases request with
  | search filter =>
      have enabled' := @loadSnapshot_enabled P σ.tree σ.clock false ⟨enabled, σ.snapshot⟩
      simp only [program, search, Request.sequential, Migrations.search]
      by_cases invalid : (!validListFilter filter) = true
      · simp only [if_pos invalid]
        rfl
      · simp only [if_neg invalid]
        cases filter.cursor with
        | empty =>
            simp only [alone_pageFrom free, enabled']
            rfl
        | malformed => rfl
        | encoded value =>
            cases decodeCursor P (.encoded value) with
            | none => rfl
            | some cursor =>
                simp only [alone_pageFrom free, enabled']
                rfl
  | refresh =>
      simp [program, refresh, @alone_loadSnapshot P σ i enabled free, Request.sequential,
        Migrations.refresh]
  | storedBytes =>
      simp [program, storedBytes, @alone_loadSnapshot P σ i enabled free, Request.sequential]
  | delete rawPath =>
      simp only [program, delete, Request.sequential, Migrations.delete]
      by_cases disabled : (!enabled) = true
      · simp only [if_pos disabled]
        rfl
      · simp only [if_neg disabled]
        cases normalizeImagePath P rawPath with
        | none => rfl
        | some paths =>
            obtain ⟨canonical, relativePath⟩ := paths
            obtain ⟨tree, snapshot, owner, readers, writer, clock⟩ := σ
            obtain ⟨rfl, rfl, rfl⟩ := free
            have faultless := @removeMigrationImage_faultless P tree relativePath _ le_rfl
            cases removed : removeMigrationImage P tree relativePath with
            | mk outcome cleaned =>
                rw [removed] at faultless
                have updated := @alone_removeCachedPath P ⟨cleaned, snapshot,
                  Function.update (fun _ => none) .mutation (some i), ∅, none, clock⟩ i enabled rfl rfl
                  canonical
                cases outcome with
                | ok result =>
                    simp [State.perform, plain, removeImage, faultless, removed, updated]
                | error e =>
                    cases e <;>
                      simp [State.perform, plain, removeImage, faultless, removed, updated]

end ImageSilo.Migrations.Serving
