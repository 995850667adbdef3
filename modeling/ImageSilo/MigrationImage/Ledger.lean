import ImageSilo.MigrationImage.Serving

/-! The ledger of a call of the migration service: its mutexes, what it has read and stored, and the file
it has found gone. -/
namespace ImageSilo.Migrations.Serving

open Go Storage Concurrent

inductive Access
  | free
  | reading
  | announced
  | writing
  deriving DecidableEq

/-- The path that a deletion has found to be gone. -/
inductive Removal
  | none
  | pending (path : GoString)
  | settled (path : GoString)

def Removal.settle : Removal → Removal
  | pending path => settled path
  | removal => removal

structure Ledger where
  holds : Mutex → Bool
  access : Access
  /-- The path of a deletion, in both of its forms. -/
  target : Option (GoString × GoString)
  listed : Option MigrationList
  removal : Removal
  /-- The snapshot that was loaded or stored last. -/
  known : Option Snapshot

variable (P : Platform)

namespace Ledger

def begin : Request → Ledger
  | .delete rawPath =>
      ⟨fun _ => false, .free, normalizeImagePath P rawPath, Option.none, Removal.none, Option.none⟩
  | _ => ⟨fun _ => false, .free, Option.none, Option.none, Removal.none, Option.none⟩

variable (l : Ledger)

def scanned (snapshot : Snapshot) : Prop :=
  ∃ list now, l.listed = some list ∧ l.removal = Removal.none ∧
    snapshot = snapshotOf list (list.files.filterMap (publicImage P)) now

def stripped (snapshot : Snapshot) : Prop :=
  ∃ known path, l.known = some known ∧ l.removal = .pending path ∧ snapshot = withoutPath known path

def permits : Action → Prop
  | .now | .contextErr => True
  | .lock .scan => l.holds .scan = false ∧ l.holds .mutation = false ∧ l.access = .free
  | .lock .mutation => l.holds .mutation = false ∧ l.access = .free
  | .unlock m => l.holds m = true ∧ ∀ path, l.removal ≠ .pending path
  | .readLock | .announce => l.access = .free
  | .readUnlock => l.access = .reading
  | .enter => l.access = .announced
  | .leave => l.access = .writing
  | .load => l.access = .reading ∨ l.access = .writing
  | .store snapshot =>
      l.access = .writing ∧ l.holds .mutation = true ∧ (l.scanned P snapshot ∨ l.stripped snapshot)
  | .listMigrationImages => l.holds .mutation = true
  | .removeMigrationImage relativePath =>
      l.holds .mutation = true ∧ l.listed = Option.none ∧ l.removal = Removal.none ∧
        ∃ rawPath canonical, normalizeImagePath P rawPath = some (canonical, relativePath) ∧
          l.target = some (canonical, relativePath)

def record : (a : Action) → Response a → Ledger
  | .lock m, _ => { l with holds := Function.update l.holds m true }
  | .unlock m, _ => { l with holds := Function.update l.holds m false, listed := Option.none }
  | .readLock, _ => { l with access := .reading }
  | .readUnlock, _ => { l with access := .free }
  | .announce, _ => { l with access := .announced }
  | .enter, _ => { l with access := .writing, known := Option.none }
  | .leave, _ => { l with access := .free }
  | .load, snapshot =>
      { l with
        known := snapshot
        removal := if l.access = .writing ∧ snapshot.isNone then l.removal.settle else l.removal }
  | .store snapshot, _ => { l with known := some snapshot, removal := l.removal.settle }
  | .listMigrationImages, list => { l with listed := list }
  | .removeMigrationImage _, removed =>
      { l with
        removal := match removed, l.target with
          | .ok _, some (canonical, _) => .pending canonical
          | .error .notExist, some (canonical, _) => .pending canonical
          | _, _ => l.removal }
  | _, _ => l

variable {l} {m m' : Mutex}

@[simp] theorem holds_locked : (l.record (.lock m) ()).holds m = true := by
  simp [record]

@[simp] theorem holds_unlocked : (l.record (.unlock m) ()).holds m = false := by
  simp [record]

theorem locked_other (other : m' ≠ m) :
    (l.record (.lock m) ()).holds m' = l.holds m' := by
  simp [record, other]

theorem unlocked_other (other : m' ≠ m) :
    (l.record (.unlock m) ()).holds m' = l.holds m' := by
  simp [record, other]

variable (l)

/-- Between two calls of the service's own methods. -/
structure Idle : Prop where
  unlocked : ∀ m, l.holds m = false
  free : l.access = .free
  unlisted : l.listed = Option.none
  told : ∀ path, l.removal ≠ .pending path

/-- What the answer of a call says. -/
def answered (request : Request) (v : Outcome) : Prop :=
  match request, v with
  | .delete rawPath, .deleted _ | .delete rawPath, .refused .imageNotFound =>
      ∃ canonical relativePath, normalizeImagePath P rawPath = some (canonical, relativePath) ∧
        l.removal = .settled canonical
  | .search _, .page page =>
      ∃ snapshot, l.known = some snapshot ∧ ∀ item ∈ page.items, item ∈ snapshot.items
  | _, _ => True

end Ledger

abbrev discipline : Discipline Action Response where
  Ledger := Ledger
  Permits := Ledger.permits P
  Reports _ _ _ := True
  record := Ledger.record

abbrev watch (requests : Nat → Request) : Watch (machine P) Outcome where
  discipline := discipline P
  begin i := .begin P (requests i)
  Final i v l := l.Idle ∧ l.answered P (requests i) v

section Walks

variable {P} {l : Ledger}

open Program

theorem publicImages_obeys (files : List MigrationFile) :
    (publicImages P files).Obeys (discipline P)
      (fun v l' => l' = l ∧ ∀ items, v = some items → items = files.filterMap (publicImage P)) l := by
  induction files with
  | nil => simp [publicImages]
  | cons file files ih =>
      rw [publicImages, obeys_bind, obeys_perform]
      refine ⟨trivial, fun cancelled _ => ?_⟩
      cases cancelled with
      | true => simp [Ledger.record]
      | false =>
          refine Obeys.bind ih ?_
          rintro v l' ⟨rfl, images⟩
          rw [obeys_pure]
          refine ⟨rfl, ?_⟩
          intro items same
          obtain ⟨rest, rfl, rfl⟩ := Option.map_eq_some_iff.mp same
          rw [images rest rfl, List.filterMap_cons]
          cases publicImage P file <;> rfl

theorem scanSnapshot_obeys (mutates : l.holds .mutation = true) :
    (scanSnapshot P).Obeys (discipline P)
      (fun v l' => ∃ list, l' = { l with listed := list } ∧ ∀ snapshot, v = some snapshot →
        ∃ scanned now, list = some scanned ∧
          snapshot = snapshotOf scanned (scanned.files.filterMap (publicImage P)) now) l := by
  rw [scanSnapshot, obeys_bind, obeys_perform]
  refine ⟨mutates, fun list _ => ?_⟩
  cases list with
  | none =>
      rw [obeys_pure]
      exact ⟨none, rfl, fun _ same => by cases same⟩
  | some scanned =>
      refine (publicImages_obeys scanned.files).bind ?_
      rintro v l' ⟨rfl, images⟩
      cases v with
      | none =>
          rw [obeys_pure]
          exact ⟨some scanned, rfl, fun _ same => by cases same⟩
      | some items =>
          rw [obeys_bind, obeys_perform]
          refine ⟨trivial, fun now _ => ?_⟩
          rw [obeys_pure]
          refine ⟨some scanned, rfl, ?_⟩
          rintro snapshot ⟨⟩
          exact ⟨scanned, now, rfl, by rw [images items rfl]⟩

theorem freshSnapshot_obeys (free : l.access = .free) :
    freshSnapshot.Obeys (discipline P)
      (fun v l' => ∃ known, l' = { l with known := known } ∧
        ∀ snapshot, v = some snapshot → known = some snapshot) l := by
  rw [freshSnapshot]
  simp only [obeys_bind, obeys_perform, obeys_pure]
  refine ⟨trivial, fun now _ => ⟨free, fun _ _ => ⟨.inl rfl, fun loaded _ => ⟨rfl, fun _ _ => ?_⟩⟩⟩⟩
  refine ⟨loaded, ?_, ?_⟩
  · obtain ⟨holds, access, target, listed, removal, known⟩ := l
    obtain rfl : access = .free := free
    simp [Ledger.record]
  · intro snapshot same
    exact (Option.filter_eq_some_iff.mp same).1

/-- A ledger between two methods whose call deletes nothing. -/
structure Quiet (l : Ledger) : Prop where
  free : l.access = .free
  unlocked : l.holds .mutation = false
  unlisted : l.listed = none
  keeps : l.removal = Removal.none

theorem Quiet.told (quiet : Quiet l) : ∀ path, l.removal ≠ .pending path := by
  rw [quiet.keeps]
  exact fun _ same => by cases same

theorem rescan_obeys (quiet : Quiet l) :
    (rescan P).Obeys (discipline P)
      (fun v l' => Quiet l' ∧ l'.holds .scan = l.holds .scan ∧
        ∀ snapshot, v = some snapshot → l'.known = some snapshot) l := by
  rw [rescan, obeys_bind, obeys_perform]
  refine ⟨⟨quiet.unlocked, quiet.free⟩, fun _ _ => ?_⟩
  have mutates : (l.record (.lock .mutation) ()).holds .mutation = true := Ledger.holds_locked
  refine (scanSnapshot_obeys mutates).bind ?_
  rintro v l' ⟨list, rfl, found⟩
  cases v with
  | none =>
      rw [obeys_bind, obeys_perform]
      refine ⟨⟨mutates, quiet.told⟩, fun _ _ => ?_⟩
      rw [obeys_pure]
      refine ⟨⟨quiet.free, Ledger.holds_unlocked, rfl, quiet.keeps⟩, ?_, fun _ same => by cases same⟩
      simp [Ledger.record]
  | some snapshot =>
      simp only [obeys_bind, obeys_perform, obeys_pure]
      obtain ⟨scanned, now, rfl, rfl⟩ := found snapshot rfl
      have stores : Ledger.scanned P { l with listed := some scanned }
          (snapshotOf scanned (scanned.files.filterMap (publicImage P)) now) :=
        ⟨scanned, now, rfl, quiet.keeps, rfl⟩
      refine ⟨quiet.free, fun _ _ => ⟨rfl, fun _ _ => ⟨⟨rfl, mutates, .inl stores⟩,
        fun _ _ => ⟨rfl, fun _ _ => ⟨⟨mutates, ?_⟩, fun _ _ =>
          ⟨⟨rfl, Ledger.holds_unlocked, rfl, ?_⟩, ?_, ?_⟩⟩⟩⟩⟩⟩
      · intro path
        change l.removal.settle ≠ _
        rw [quiet.keeps]
        exact fun same => by cases same
      · change l.removal.settle = _
        rw [quiet.keeps]
        rfl
      · simp [Ledger.record]
      · exact fun _ same => same

theorem usableSnapshot_obeys (force : Bool) (quiet : Quiet l) :
    (usableSnapshot force).Obeys (discipline P)
      (fun v l' => Quiet l' ∧ l'.holds .scan = l.holds .scan ∧
        ∀ snapshot, v = some snapshot → l'.known = some snapshot) l := by
  cases force with
  | true => exact ⟨quiet, rfl, fun _ same => by cases same⟩
  | false =>
      refine (freshSnapshot_obeys quiet.free).mono ?_
      rintro v l' ⟨known, rfl, found⟩
      exact ⟨⟨quiet.free, quiet.unlocked, quiet.unlisted, quiet.keeps⟩, rfl, found⟩

theorem loadLocked_obeys (force : Bool) (quiet : Quiet l) :
    (loadLocked P force).Obeys (discipline P)
      (fun v l' => Quiet l' ∧ l'.holds .scan = l.holds .scan ∧
        ∀ snapshot, v = some snapshot → l'.known = some snapshot) l := by
  rw [loadLocked]
  refine (usableSnapshot_obeys force quiet).bind ?_
  rintro again l' ⟨quiet', same, found⟩
  cases again with
  | some snapshot =>
      rw [obeys_pure]
      refine ⟨quiet', same, ?_⟩
      rintro _ ⟨⟩
      exact found snapshot rfl
  | none =>
      refine (rescan_obeys quiet').mono ?_
      rintro v l'' ⟨quiet'', same', known⟩
      exact ⟨quiet'', same'.trans same, known⟩

theorem loadSnapshot_obeys (force : Bool) (quiet : Quiet l) (outside : l.holds .scan = false) :
    (loadSnapshot P force).Obeys (discipline P)
      (fun v l' => Quiet l' ∧ l'.holds .scan = false ∧
        ∀ snapshot, v = some snapshot → l'.known = some snapshot) l := by
  rw [loadSnapshot]
  refine (usableSnapshot_obeys force quiet).bind ?_
  rintro early l' ⟨quiet', same, found⟩
  cases early with
  | some snapshot =>
      rw [obeys_pure]
      refine ⟨quiet', same.trans outside, ?_⟩
      rintro _ ⟨⟩
      exact found snapshot rfl
  | none =>
      rw [obeys_bind, obeys_perform]
      refine ⟨⟨same.trans outside, quiet'.unlocked, quiet'.free⟩, fun _ _ => ?_⟩
      have entered : Quiet (l'.record (.lock .scan) ()) :=
        ⟨quiet'.free, quiet'.unlocked, quiet'.unlisted, quiet'.keeps⟩
      refine (loadLocked_obeys force entered).bind ?_
      rintro v l'' ⟨quiet'', inside, known⟩
      rw [obeys_bind, obeys_perform]
      refine ⟨⟨inside.trans Ledger.holds_locked, quiet''.told⟩, fun _ _ => ?_⟩
      rw [obeys_pure]
      refine ⟨⟨quiet''.free, ?_, rfl, quiet''.keeps⟩, Ledger.holds_unlocked, known⟩
      exact (Ledger.unlocked_other (by decide)).trans quiet''.unlocked

theorem acceptedImages_obeys (filter : ListFilter) (images : List Image) :
    (acceptedImages P filter images).Obeys (discipline P)
      (fun v l' => l' = l ∧ ∀ items, v = some items → items = images.filter (accepts P filter)) l := by
  induction images with
  | nil => simp [acceptedImages]
  | cons image images ih =>
      rw [acceptedImages, obeys_bind, obeys_perform]
      refine ⟨trivial, fun cancelled _ => ?_⟩
      cases cancelled with
      | true => simp [Ledger.record]
      | false =>
          refine Obeys.bind ih ?_
          rintro v l' ⟨rfl, kept⟩
          rw [obeys_pure]
          refine ⟨rfl, ?_⟩
          intro items same
          obtain ⟨rest, rfl, rfl⟩ := Option.map_eq_some_iff.mp same
          rw [kept rest rfl, List.filter_cons]

theorem Quiet.idle (quiet : Quiet l) (outside : l.holds .scan = false) : l.Idle where
  unlocked m := by
    cases m with
    | scan => exact outside
    | mutation => exact quiet.unlocked
  free := quiet.free
  unlisted := quiet.unlisted
  told := quiet.told

theorem page_items {items : List Image} {limit : Nat} {snapshot : Snapshot} {enabled : Bool}
    {item : Image} (member : item ∈ (page items limit snapshot enabled).items) : item ∈ items := by
  unfold page at member
  split at member
  · exact List.mem_of_mem_take member
  · exact member

theorem afterCursor_subset {items : List Image} {cursor : ListCursor} {item : Image}
    (member : item ∈ afterCursor items cursor) : item ∈ items :=
  (List.dropWhile_sublist _).subset member

theorem pageFrom_obeys (enabled : Bool) (filter : ListFilter) (cursor : Option ListCursor)
    (quiet : Quiet l) (outside : l.holds .scan = false) :
    (pageFrom P enabled filter cursor).Obeys (discipline P)
      (fun v l' => l'.Idle ∧ l'.answered P (.search filter) v) l := by
  rw [pageFrom]
  refine (loadSnapshot_obeys false quiet outside).bind ?_
  rintro v l' ⟨quiet', outside', known⟩
  cases v with
  | none => exact ⟨quiet'.idle outside', trivial⟩
  | some snapshot =>
      refine (acceptedImages_obeys filter snapshot.items).bind ?_
      rintro v l'' ⟨rfl, kept⟩
      cases v with
      | none => exact ⟨quiet'.idle outside', trivial⟩
      | some items =>
          rw [obeys_pure]
          refine ⟨quiet'.idle outside', snapshot, known snapshot rfl, ?_⟩
          intro item member
          have shown := page_items member
          have inside : item ∈ items := by
            cases cursor with
            | none => exact shown
            | some cursor => exact afterCursor_subset shown
          rw [kept items rfl] at inside
          exact (List.mem_filter.mp inside).1

/-- The path of a deletion is settled once the cache has been updated. -/
theorem removeCachedPath_obeys {path : GoString} (free : l.access = .free)
    (mutates : l.holds .mutation = true) (pending : l.removal = .pending path) :
    (removeCachedPath path).Obeys (discipline P)
      (fun _ l' => l'.holds = l.holds ∧ l'.access = .free ∧ l'.listed = l.listed ∧
        l'.removal = .settled path) l := by
  rw [removeCachedPath]
  simp only [obeys_bind, obeys_perform]
  refine ⟨free, fun _ _ => ⟨rfl, fun _ _ => ⟨.inr rfl, fun loaded _ => ?_⟩⟩⟩
  cases loaded with
  | none =>
      refine ⟨rfl, fun _ _ => ⟨rfl, rfl, rfl, ?_⟩⟩
      simp [Ledger.record, pending, Removal.settle]
  | some snapshot =>
      refine ⟨⟨rfl, mutates, .inr ⟨snapshot, path, rfl, ?_, rfl⟩⟩, fun _ _ => ⟨rfl, fun _ _ =>
        ⟨rfl, rfl, rfl, ?_⟩⟩⟩
      · simp [Ledger.record, pending]
      · simp [Ledger.record, pending, Removal.settle]

theorem removeImage_obeys {rawPath canonical relativePath : GoString}
    (normal : normalizeImagePath P rawPath = some (canonical, relativePath)) (free : l.access = .free)
    (mutates : l.holds .mutation = true) (unlisted : l.listed = none) (keeps : l.removal = Removal.none)
    (target : l.target = some (canonical, relativePath)) :
    (removeImage canonical relativePath).Obeys (discipline P)
      (fun v l' => l'.holds = l.holds ∧ l'.access = .free ∧ l'.listed = none ∧
        (∀ path, l'.removal ≠ .pending path) ∧ l'.answered P (.delete rawPath) v) l := by
  rw [removeImage, obeys_bind, obeys_perform]
  refine ⟨⟨mutates, unlisted, keeps, rawPath, canonical, normal, target⟩, fun removed _ => ?_⟩
  have unchanged : ∀ path, l.removal ≠ .pending path := by
    rw [keeps]
    exact fun _ same => by cases same
  -- the two answers after which the path is gone
  have updates : ∀ v : Outcome, (∀ l' : Ledger, l'.removal = .settled canonical →
      l'.answered P (.delete rawPath) v) → (removeCachedPath canonical >>= fun _ => pure v).Obeys
        (discipline P) (fun v l' => l'.holds = l.holds ∧ l'.access = .free ∧ l'.listed = none ∧
          (∀ path, l'.removal ≠ .pending path) ∧ l'.answered P (.delete rawPath) v)
        { l with removal := .pending canonical } := by
    intro v answers
    have before : Ledger.access { l with removal := .pending canonical } = .free := free
    refine (removeCachedPath_obeys before mutates rfl).bind ?_
    rintro _ l' ⟨holds, free', listed, settled⟩
    rw [obeys_pure]
    refine ⟨holds, free', listed.trans unlisted, ?_, answers l' settled⟩
    rw [settled]
    exact fun _ same => by cases same
  cases removed with
  | ok result =>
      have recorded : l.record (.removeMigrationImage relativePath) (.ok result) =
          { l with removal := .pending canonical } := by
        simp [Ledger.record, target]
      have after := updates
        (.deleted ⟨canonical, result.removedDirectories, result.cleanupPending⟩)
        fun l' settled => ⟨canonical, relativePath, normal, settled⟩
      rw [← recorded] at after
      exact after
  | error e =>
      cases e with
      | notExist =>
          have recorded : l.record (.removeMigrationImage relativePath) (.error .notExist) =
              { l with removal := .pending canonical } := by
            simp [Ledger.record, target]
          have after := updates (.refused .imageNotFound) fun l' settled =>
            ⟨canonical, relativePath, normal, settled⟩
          rw [← recorded] at after
          exact after
      | unsafePath => exact ⟨rfl, free, unlisted, unchanged, trivial⟩
      | notEmpty => exact ⟨rfl, free, unlisted, unchanged, trivial⟩
      | failed => exact ⟨rfl, free, unlisted, unchanged, trivial⟩

theorem delete_obeys (enabled : Bool) (rawPath : GoString) :
    (delete P enabled rawPath).Obeys (discipline P)
      (fun v l' => l'.Idle ∧ l'.answered P (.delete rawPath) v) (.begin P (.delete rawPath)) := by
  have idle : (Ledger.begin P (.delete rawPath)).Idle :=
    ⟨fun _ => rfl, rfl, rfl, fun _ same => by cases same⟩
  unfold delete
  split
  · exact ⟨idle, trivial⟩
  cases normal : normalizeImagePath P rawPath with
  | none => exact ⟨idle, trivial⟩
  | some paths =>
      obtain ⟨canonical, relativePath⟩ := paths
      rw [obeys_bind, obeys_perform]
      refine ⟨trivial, fun cancelled _ => ?_⟩
      cases cancelled with
      | true => exact ⟨idle, trivial⟩
      | false =>
          simp only [Bool.false_eq_true, if_false]
          rw [obeys_bind, obeys_perform]
          refine ⟨⟨rfl, rfl⟩, fun _ _ => ?_⟩
          have mutates : ((Ledger.begin P (.delete rawPath)).record (.lock .mutation) ()).holds
              .mutation = true := Ledger.holds_locked
          have target : ((Ledger.begin P (.delete rawPath)).record (.lock .mutation) ()).target =
              some (canonical, relativePath) := normal
          refine (removeImage_obeys normal rfl mutates rfl rfl target).bind ?_
          rintro v l' ⟨holds, free, unlisted, told, answered⟩
          rw [obeys_bind, obeys_perform]
          refine ⟨⟨by rw [holds]; exact mutates, told⟩, fun _ _ => ?_⟩
          rw [obeys_pure]
          refine ⟨⟨?_, free, rfl, told⟩, answered⟩
          intro m
          change Function.update l'.holds .mutation false m = false
          rw [holds]
          cases m <;> rfl

theorem program_obeys (enabled : Bool) (request : Request) :
    (program P enabled request).Obeys (discipline P)
      (fun v l' => l'.Idle ∧ l'.answered P request v) (.begin P request) := by
  cases request with
  | delete rawPath => exact delete_obeys enabled rawPath
  | search filter =>
      have quiet : Quiet (.begin P (.search filter)) := ⟨rfl, rfl, rfl, rfl⟩
      change (search P enabled filter).Obeys _ _ _
      unfold search
      split
      · exact ⟨quiet.idle rfl, trivial⟩
      split
      · exact pageFrom_obeys enabled filter none quiet rfl
      · exact pageFrom_obeys enabled filter _ quiet rfl
      · exact ⟨quiet.idle rfl, trivial⟩
  | refresh =>
      refine (loadSnapshot_obeys true ⟨rfl, rfl, rfl, rfl⟩ rfl).bind ?_
      rintro v l' ⟨quiet, outside, -⟩
      exact ⟨quiet.idle outside, by cases v <;> trivial⟩
  | storedBytes =>
      refine (loadSnapshot_obeys false ⟨rfl, rfl, rfl, rfl⟩ rfl).bind ?_
      rintro v l' ⟨quiet, outside, -⟩
      exact ⟨quiet.idle outside, by cases v <;> trivial⟩

end Walks

end ImageSilo.Migrations.Serving
