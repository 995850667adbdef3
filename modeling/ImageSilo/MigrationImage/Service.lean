import ImageSilo.Delivery.Spelling
import ImageSilo.Storage.Migrations
import Mathlib.Algebra.Ring.Int.Defs
import Mathlib.Data.List.Lex
import Mathlib.Data.List.Sort

/-! A scan turns the listed files into images under their public paths, newest first. -/
namespace ImageSilo.Migrations

open Go Storage Delivery

structure Image where
  path : GoString
  originalName : GoString
  mimeType : GoString
  extension : GoString
  storedSize : Int
  modifiedAt : Time
  relativePath : GoString

structure ListCursor where
  modifiedAt : Int
  path : GoString

/-- The text of a cursor is the base64 form of a JSON value. -/
inductive Cursor
  | empty
  | malformed
  | encoded (value : ListCursor)

structure ListFilter where
  limit : Int
  cursor : Cursor
  query : GoString
  mimeType : GoString
  minStoredBytes : Int
  maxStoredBytes : Int

structure Page where
  items : List Image
  nextCursor : Cursor
  skippedFiles : Nat
  mutationsEnabled : Bool

structure Snapshot where
  items : List Image
  skippedFiles : Nat
  storedBytes : Int
  scannedAt : Time

structure Service where
  mutationsEnabled : Bool
  snapshot : Option Snapshot

def snapshotTTL : Int := 30 * 60 * second

/-- `time.Time.UnixNano`, also where the result does not fit. -/
def unixNano (t : Time) : Int := Int.bmod t (2 ^ 64)

variable (P : Platform)

/-- The canonical path and the name below the migration root. -/
def normalizeImagePath (rawPath : GoString) : Option (GoString × GoString) :=
  match normalizeAliasPath P (trimSpace rawPath) with
  | .error _ => none
  | .ok canonicalPath =>
      match pathUnescape canonicalPath with
      | none => none
      | some decoded =>
          let relativePath := trimPrefix decoded (str "/")
          if relativePath = [] ∨ !validPath relativePath then none
          else some (canonicalPath, relativePath)

def publicImage (file : MigrationFile) : Option Image :=
  match normalizeAliasPath P (escapedPath (str "/" ++ file.relativePath)) with
  | .error _ => none
  | .ok canonicalPath =>
      some ⟨canonicalPath, base file.relativePath, file.mimeType, file.extension, file.size,
        file.modifiedAt, file.relativePath⟩

/-- The comparison that the items are sorted with. -/
def less (left right : Image) : Bool :=
  if left.modifiedAt = right.modifiedAt then decide (left.path < right.path)
  else decide (right.modifiedAt < left.modifiedAt)

def scanSnapshot (tree : Tree) (now : Time) : Snapshot :=
  let scanned := listMigrationImages P tree
  let items := scanned.files.filterMap (publicImage P)
  ⟨items.insertionSort fun left right => less right left = false,
    scanned.skippedFiles + (scanned.files.length - items.length), scanned.storedBytes, now⟩

def freshSnapshot (s : Service) (now : Time) : Option Snapshot :=
  s.snapshot.filter fun snapshot => decide (now < snapshot.scannedAt + snapshotTTL)

def loadSnapshot (tree : Tree) (now : Time) (force : Bool) (s : Service) : Snapshot × Service :=
  match force, freshSnapshot s now with
  | false, some snapshot => (snapshot, s)
  | _, _ =>
      let scanned := scanSnapshot P tree now
      (scanned, { s with snapshot := some scanned })

def refresh (tree : Tree) (now : Time) (s : Service) : Service := (loadSnapshot P tree now true s).2

/-- `strings.Contains`. -/
def contains (s part : GoString) : Bool := s.tails.any fun rest => hasPrefix rest part

def validListFilter (filter : ListFilter) : Bool :=
  decide ((trimSpace filter.query).length ≤ 256) && decide (0 ≤ filter.minStoredBytes) &&
    decide (0 ≤ filter.maxStoredBytes) &&
    !(decide (0 < filter.minStoredBytes) && decide (0 < filter.maxStoredBytes) &&
      decide (filter.maxStoredBytes < filter.minStoredBytes)) &&
    (filter.mimeType == [] ||
      [str "image/jpeg", str "image/png", str "image/webp", str "image/gif"].contains filter.mimeType)

def accepts (filter : ListFilter) (image : Image) : Bool :=
  let query := P.toLower (trimSpace filter.query)
  (query == [] || contains (P.toLower image.path) query ||
      contains (P.toLower image.relativePath) query) &&
    (filter.mimeType == [] || image.mimeType == filter.mimeType) &&
    !(decide (0 < filter.minStoredBytes) && decide (image.storedSize < filter.minStoredBytes)) &&
    !(decide (0 < filter.maxStoredBytes) && decide (filter.maxStoredBytes < image.storedSize))

def decodeCursor : Cursor → Option ListCursor
  | .encoded value =>
      match normalizeImagePath P value.path with
      | some (normalized, _) => if normalized = value.path then some value else none
      | none => none
  | _ => none

def after (cursor : ListCursor) (item : Image) : Bool :=
  decide (unixNano item.modifiedAt < cursor.modifiedAt) ||
    (decide (unixNano item.modifiedAt = cursor.modifiedAt) && decide (cursor.path < item.path))

def afterCursor (items : List Image) (cursor : ListCursor) : List Image :=
  items.dropWhile fun item => !after cursor item

def effectiveLimit (limit : Int) : Nat := if limit ≤ 0 ∨ 100 < limit then 24 else limit.toNat

/-- The part of the items that fits on a page, with the cursor for the next one. -/
def page (items : List Image) (limit : Nat) (snapshot : Snapshot) (mutationsEnabled : Bool) : Page :=
  if limit < items.length then
    let shown := items.take limit
    ⟨shown,
      match shown.getLast? with
      | some last => .encoded ⟨unixNano last.modifiedAt, last.path⟩
      | none => .empty,
      snapshot.skippedFiles, mutationsEnabled⟩
  else ⟨items, .empty, snapshot.skippedFiles, mutationsEnabled⟩

/-- The only error is `ErrInvalidListFilter`. -/
def search (tree : Tree) (now : Time) (filter : ListFilter) (s : Service) : Option Page × Service :=
  if !validListFilter filter then (none, s)
  else
    let paged (cursor : Option ListCursor) : Option Page × Service :=
      let (snapshot, s) := loadSnapshot P tree now false s
      let items := snapshot.items.filter (accepts P filter)
      let items := match cursor with
        | some cursor => afterCursor items cursor
        | none => items
      (some (page items (effectiveLimit filter.limit) snapshot s.mutationsEnabled), s)
    match filter.cursor, decodeCursor P filter.cursor with
    | .empty, _ => paged none
    | _, some cursor => paged (some cursor)
    | _, none => (none, s)

inductive DeleteError
  | mutationsDisabled
  | invalidImagePath
  | imageNotFound
  | other
  deriving DecidableEq

structure DeleteResult where
  path : GoString
  removedDirectories : Nat
  directoryCleanupPending : Bool
  deriving DecidableEq

def removeCachedPath (s : Service) (canonicalPath : GoString) : Service :=
  { s with snapshot := s.snapshot.map fun snapshot =>
      { snapshot with
        items := snapshot.items.filter fun item => item.path != canonicalPath
        storedBytes := snapshot.storedBytes -
          ((snapshot.items.filter fun item => item.path == canonicalPath).map Image.storedSize).sum } }

def delete (tree : Tree) (rawPath : GoString) (s : Service) :
    Except DeleteError DeleteResult × Tree × Service :=
  if !s.mutationsEnabled then (.error .mutationsDisabled, tree, s)
  else
    match normalizeImagePath P rawPath with
    | none => (.error .invalidImagePath, tree, s)
    | some (canonicalPath, relativePath) =>
        match removeMigrationImage P tree relativePath with
        | (.error .notExist, tree) => (.error .imageNotFound, tree, removeCachedPath s canonicalPath)
        | (.error .unsafePath, tree) => (.error .invalidImagePath, tree, s)
        | (.error _, tree) => (.error .other, tree, s)
        | (.ok removed, tree) =>
            (.ok ⟨canonicalPath, removed.removedDirectories, removed.cleanupPending⟩, tree,
              removeCachedPath s canonicalPath)

end ImageSilo.Migrations
