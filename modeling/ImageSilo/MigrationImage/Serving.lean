import ImageSilo.MigrationImage.Service
import ImageSilo.Storage.Pruning
import ImageSilo.System.Machine

/-! The calls of the migration service, with every operation on a mutex a step of its own. -/
namespace ImageSilo.Migrations.Serving

open Go Storage Concurrent

inductive Mutex
  | scan
  | mutation
  deriving DecidableEq

structure State where
  tree : Tree
  snapshot : Option Snapshot
  owner : Mutex → Option Nat
  /-- The two sides of the mutex of the cache. -/
  readers : Finset Nat
  writer : Option Writer
  clock : Time

inductive Action
  | now
  | contextErr
  | lock (m : Mutex)
  | unlock (m : Mutex)
  | readLock
  | readUnlock
  | announce
  | enter
  | leave
  | load
  | store (snapshot : Snapshot)
  | listMigrationImages
  | removeMigrationImage (relativePath : GoString)

abbrev Response : Action → Type
  | .now => Time
  | .contextErr => Bool
  | .load => Option Snapshot
  | .listMigrationImages => Option MigrationList
  | .removeMigrationImage _ => Except RemoveError MigrationDeleteResult
  | _ => Unit

inductive Choice
  | normal
  | fault
  | faults (faults : Faults)

variable (P : Platform)

/-- A scan or a check of the context fails as a whole; the calls of a removal fail one by one. -/
def State.perform (σ : State) (call : Nat) : (a : Action) → Choice → Option (Response a × State)
  | .now, _ => some (σ.clock, σ)
  | .contextErr, .normal => some (false, σ)
  | .contextErr, .fault => some (true, σ)
  | .lock m, _ =>
      if σ.owner m = none then
        some ((), { σ with owner := Function.update σ.owner m (some call) })
      else none
  | .unlock m, _ =>
      if σ.owner m = some call then
        some ((), { σ with owner := Function.update σ.owner m none })
      else none
  | .readLock, _ =>
      if σ.writer = none then some ((), { σ with readers := insert call σ.readers }) else none
  | .readUnlock, _ =>
      if call ∈ σ.readers then some ((), { σ with readers := σ.readers.erase call }) else none
  | .announce, _ =>
      if σ.writer = none then some ((), { σ with writer := some ⟨call, false⟩ }) else none
  | .enter, _ =>
      if σ.writer = some ⟨call, false⟩ ∧ σ.readers = ∅ then
        some ((), { σ with writer := some ⟨call, true⟩ })
      else none
  | .leave, _ =>
      if σ.writer = some ⟨call, true⟩ then some ((), { σ with writer := none }) else none
  | .load, _ => some (σ.snapshot, σ)
  | .store snapshot, _ => some ((), { σ with snapshot := some snapshot })
  | .listMigrationImages, .normal => some (some (listMigrationImages P σ.tree), σ)
  | .listMigrationImages, .fault => some (none, σ)
  | .removeMigrationImage relativePath, .faults faults =>
      (faults.removeMigrationImage (split slash relativePath).length P σ.tree relativePath).map
        fun (r, tree) => (r, { σ with tree := tree })
  | _, _ => none

/-- Only the clock moves by itself. -/
abbrev machine : Machine Action Response where
  Shared := State
  Choice := Choice
  perform call a c σ := σ.perform P call a c
  environment σ σ' := ∃ t, σ' = { σ with clock := t }
  restart _ _ := False

abbrev Process := Program Action Response

open Program

/-- The loop of a scan over the listed files. -/
def publicImages : List MigrationFile → Process (Option (List Image))
  | [] => pure (some [])
  | file :: files => do
      let cancelled : Bool ← perform Action.contextErr
      if cancelled then pure none
      else do
        let images ← publicImages files
        pure (images.map ((publicImage P file).toList ++ ·))

def snapshotOf (scanned : MigrationList) (items : List Image) (now : Time) : Snapshot :=
  ⟨items.insertionSort fun left right => less right left = false,
    scanned.skippedFiles + (scanned.files.length - items.length), scanned.storedBytes, now⟩

def scanSnapshot : Process (Option Snapshot) := do
  let scanned : Option MigrationList ← perform Action.listMigrationImages
  match scanned with
  | none => pure none
  | some scanned => do
      let images ← publicImages P scanned.files
      match images with
      | none => pure none
      | some items => do
          let now : Time ← perform Action.now
          pure (some (snapshotOf scanned items now))

def freshSnapshot : Process (Option Snapshot) := do
  let now : Time ← perform Action.now
  let _ ← perform Action.readLock
  let snapshot : Option Snapshot ← perform Action.load
  let _ ← perform Action.readUnlock
  pure (snapshot.filter fun snapshot => decide (now < snapshot.scannedAt + snapshotTTL))

/-- The part of `loadSnapshot` that has the scan mutex and has found no fresh snapshot. -/
def rescan : Process (Option Snapshot) := do
  let _ ← perform (Action.lock .mutation)
  let scanned ← scanSnapshot P
  match scanned with
  | none => do
      let _ ← perform (Action.unlock .mutation)
      pure none
  | some scanned => do
      let _ ← perform Action.announce
      let _ ← perform Action.enter
      let _ ← perform (Action.store scanned)
      let _ ← perform Action.leave
      let _ ← perform (Action.unlock .mutation)
      pure (some scanned)

/-- The test that `loadSnapshot` makes twice. -/
def usableSnapshot (force : Bool) : Process (Option Snapshot) :=
  if force then pure none else freshSnapshot

/-- What `loadSnapshot` does with the scan mutex. -/
def loadLocked (force : Bool) : Process (Option Snapshot) := do
  let again ← usableSnapshot force
  match again with
  | some snapshot => pure (some snapshot)
  | none => rescan P

def loadSnapshot (force : Bool) : Process (Option Snapshot) := do
  let early ← usableSnapshot force
  match early with
  | some snapshot => pure (some snapshot)
  | none => do
      let _ ← perform (Action.lock .scan)
      let loaded ← loadLocked P force
      let _ ← perform (Action.unlock .scan)
      pure loaded

/-- The snapshot that `removeCachedPath` puts in the place of another. -/
def withoutPath (snapshot : Snapshot) (canonicalPath : GoString) : Snapshot :=
  { snapshot with
    items := snapshot.items.filter fun item => item.path != canonicalPath
    storedBytes := snapshot.storedBytes -
      ((snapshot.items.filter fun item => item.path == canonicalPath).map Image.storedSize).sum }

def removeCachedPath (canonicalPath : GoString) : Process Unit := do
  let _ ← perform Action.announce
  let _ ← perform Action.enter
  let snapshot : Option Snapshot ← perform Action.load
  match snapshot with
  | none => perform Action.leave
  | some snapshot => do
      let _ ← perform (Action.store (withoutPath snapshot canonicalPath))
      perform Action.leave

inductive Outcome
  | invalidListFilter
  | page (page : Page)
  | refreshed
  | storedBytes (bytes : Int)
  | deleted (result : DeleteResult)
  | refused (error : DeleteError)
  | failed

/-- The loop of a search over the items of the snapshot. -/
def acceptedImages (filter : ListFilter) : List Image → Process (Option (List Image))
  | [] => pure (some [])
  | image :: images => do
      let cancelled : Bool ← perform Action.contextErr
      if cancelled then pure none
      else do
        let rest ← acceptedImages filter images
        pure (rest.map fun rest => if accepts P filter image then image :: rest else rest)

def pageFrom (enabled : Bool) (filter : ListFilter) (cursor : Option ListCursor) : Process Outcome := do
  let snapshot ← loadSnapshot P false
  match snapshot with
  | none => pure .failed
  | some snapshot => do
      let items ← acceptedImages P filter snapshot.items
      match items with
      | none => pure .failed
      | some items =>
          let items := match cursor with
            | some cursor => afterCursor items cursor
            | none => items
          pure (.page (page items (effectiveLimit filter.limit) snapshot enabled))

def search (enabled : Bool) (filter : ListFilter) : Process Outcome :=
  if !validListFilter filter then pure .invalidListFilter
  else
    match filter.cursor, decodeCursor P filter.cursor with
    | .empty, _ => pageFrom P enabled filter none
    | _, some cursor => pageFrom P enabled filter (some cursor)
    | _, none => pure .invalidListFilter

def refresh : Process Outcome := do
  let snapshot ← loadSnapshot P true
  pure (snapshot.elim .failed fun _ => .refreshed)

def storedBytes : Process Outcome := do
  let snapshot ← loadSnapshot P false
  pure (snapshot.elim .failed fun snapshot => .storedBytes snapshot.storedBytes)

/-- The part of `Delete` that has the mutation mutex. -/
def removeImage (canonicalPath relativePath : GoString) : Process Outcome := do
  let removed : Except RemoveError MigrationDeleteResult ←
    perform (Action.removeMigrationImage relativePath)
  match removed with
  | .error .notExist => do
      let _ ← removeCachedPath canonicalPath
      pure (.refused .imageNotFound)
  | .error .unsafePath => pure (.refused .invalidImagePath)
  | .error _ => pure (.refused .other)
  | .ok removed => do
      let _ ← removeCachedPath canonicalPath
      pure (.deleted ⟨canonicalPath, removed.removedDirectories, removed.cleanupPending⟩)

def delete (enabled : Bool) (rawPath : GoString) : Process Outcome :=
  if !enabled then pure (.refused .mutationsDisabled)
  else
    match normalizeImagePath P rawPath with
    | none => pure (.refused .invalidImagePath)
    | some (canonicalPath, relativePath) => do
        let cancelled : Bool ← perform Action.contextErr
        if cancelled then pure (.refused .other)
        else do
          let _ ← perform (Action.lock .mutation)
          let outcome ← removeImage canonicalPath relativePath
          let _ ← perform (Action.unlock .mutation)
          pure outcome

inductive Request
  | search (filter : ListFilter)
  | refresh
  | storedBytes
  | delete (rawPath : GoString)

def program (enabled : Bool) : Request → Process Outcome
  | .search filter => search P enabled filter
  | .refresh => refresh P
  | .storedBytes => storedBytes P
  | .delete rawPath => delete P enabled rawPath

/-- Any number of calls; nothing else touches the tree. -/
def serving (enabled : Bool) (requests : Nat → Request) : Setting (machine P) Outcome where
  start i := program P enabled (requests i)
  aborted := .failed
  Crashes := False
  Admits _ _ := True

/-- A new service. -/
def start (enabled : Bool) (requests : Nat → Request) (tree : Tree) (clock : Time) :
    World (machine P) Outcome :=
  ⟨⟨tree, none, fun _ => none, ∅, none, clock⟩, fun i => program P enabled (requests i)⟩

end ImageSilo.Migrations.Serving
