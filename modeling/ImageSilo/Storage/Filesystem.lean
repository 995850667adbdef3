import ImageSilo.Image.Model
import ImageSilo.Tables.Unique
import Mathlib.Data.Finset.Sort

/-! Three flat directories and the tree of migration files; a file action is one system call or one call
of the processor. -/
namespace ImageSilo

open Go Tables

/-- What a step leaves open. -/
inductive Choice
  | normal
  | fault
  /-- A statement takes effect and reports an error all the same. -/
  | interrupted
  | name (text : GoString)
  /-- A write that fails after some bytes. -/
  | partialWrite (bytes : Nat)
  /-- How the processor ends and what its output file then holds, if there still is one. -/
  | processed (failure : Option Processor.Error) (output : Option Bytes)

namespace Storage

inductive Node
  | regular (content : Bytes)
  | other (size : Int)
  deriving DecidableEq

structure Entry where
  node : Node
  modifiedAt : Time
  deriving DecidableEq

abbrev Directory := Finmap fun _ : GoString => Entry

inductive Folder
  | images
  | thumbnails
  | temporary
  deriving DecidableEq

inductive MigrationNode
  | regular (content : Bytes) (modifiedAt : Time)
  | other

structure Files where
  directory : Folder → Directory
  /-- Names that temporary files have had. -/
  handedOut : Finset GoString
  /-- `Lstat` below the migration root. -/
  migrations : GoString → Option MigrationNode
  /-- When the file last committed under a storage key was last written. No program reads this; it
  is kept for statements about files that are gone. -/
  lastWrite : Finmap fun _ : GoString => Time

def Files.images (f : Files) : Directory := f.directory .images

def Files.thumbnails (f : Files) : Directory := f.directory .thumbnails

def Files.temporary (f : Files) : Directory := f.directory .temporary

def Files.put (f : Files) (folder : Folder) (key : GoString) (entry : Entry) : Files :=
  { f with directory := Function.update f.directory folder ((f.directory folder).insert key entry) }

def Files.drop (f : Files) (folder : Folder) (key : GoString) : Files :=
  { f with directory := Function.update f.directory folder ((f.directory folder).erase key) }

/-- The check shared by the keys of the three directories. -/
def validKey (key : GoString) : Bool :=
  key != [] && key == base key && !containsAny key (0 :: str "/\\") && validPath key

structure FileEntry where
  key : GoString
  size : Int
  modifiedAt : Time
  regular : Bool

def entryOf (key : GoString) (entry : Entry) : FileEntry :=
  match entry.node with
  | .regular content => ⟨key, content.length, entry.modifiedAt, true⟩
  | .other size => ⟨key, size, entry.modifiedAt, false⟩

/-- `os.ReadDir` with the information of each entry, in the order of the names. -/
def listDirectory (d : Directory) : List FileEntry :=
  d.keys.sort.filterMap fun key => (d.lookup key).map (entryOf key)

theorem mem_listDirectory {d : Directory} {e : FileEntry} (member : e ∈ listDirectory d) :
    ∃ entry, d.lookup e.key = some entry ∧ e = entryOf e.key entry := by
  obtain ⟨key, -, found⟩ := List.mem_filterMap.mp member
  obtain ⟨entry, there, rfl⟩ := Option.map_eq_some_iff.mp found
  have same : (entryOf key entry).key = key := by
    unfold entryOf
    split <;> rfl
  exact ⟨entry, by rw [same]; exact there, by rw [same]⟩

theorem listDirectory_mem {d : Directory} {key : GoString} {entry : Entry}
    (there : d.lookup key = some entry) : entryOf key entry ∈ listDirectory d := by
  refine List.mem_filterMap.mpr ⟨key, (Finset.mem_sort _).mpr ?_, by simp [there]⟩
  exact Finmap.mem_keys.mpr (Finmap.mem_of_lookup_eq_some there)

inductive FileRef
  | temporary (path : GoString)
  | stored (key : GoString)

def Files.read (f : Files) : FileRef → Option Entry
  | .temporary path => f.temporary.lookup path
  | .stored key => f.images.lookup key

inductive OpenError
  | notExist
  | failed
  deriving DecidableEq

/-- `openRegularInRoot`, read in full. The key `.` names the directory itself. -/
def openRegular (d : Directory) (key : GoString) : Except OpenError Bytes :=
  if key = str "." then .error .failed
  else
    match d.lookup key with
    | none => .error .notExist
    | some ⟨.regular content, _⟩ => .ok content
    | some ⟨.other _, _⟩ => .error .failed

def migrationMIMETypes : List (GoString × GoString) :=
  [(str ".gif", str "image/gif"), (str ".jpeg", str "image/jpeg"), (str ".jpg", str "image/jpeg"),
    (str ".png", str "image/png"), (str ".webp", str "image/webp")]

structure MigrationImage where
  content : Bytes
  mimeType : GoString
  modifiedAt : Time
  deriving DecidableEq

variable (P : Platform)

/-- `openMigrationImage` on a tree that does not change meanwhile. -/
def openMigrationImage (lstat : GoString → Option MigrationNode) (path : GoString) :
    Option MigrationImage :=
  if path = [] ∨ !validPath path ∨ containsAny path (0 :: str "\\") then none
  else
    match migrationMIMETypes.lookup (P.toLower (ext path)), lstat path with
    | some mimeType, some (.regular content modifiedAt) =>
        if content ≠ [] ∧ P.detectContentType (content.take 512) = mimeType then
          some ⟨content, mimeType, modifiedAt⟩
        else none
    | _, _ => none

inductive FileAction
  | createTemporary
  | closeTemporary (path : GoString)
  | write (path : GoString) (content : Bytes)
  | statTemporary (path : GoString)
  | transform (input : FileRef) (output : GoString) (metadata : Processor.Metadata)
      (options : Processor.Options) (plan : Processor.Plan)
  | thumbnail (input : FileRef) (output : GoString)
  | inspect (file : FileRef) (limits : Processor.Limits)
  | hash (path : GoString)
  | statImage (key : GoString)
  | rename (path : GoString) (folder : Folder) (key : GoString)
  | remove (folder : Folder) (key : GoString)
  | openImage (key : GoString)
  | list (folder : Folder)
  | openMigration (path : GoString)

namespace FileAction

abbrev Response : FileAction → Type
  | createTemporary => Except Error GoString
  | closeTemporary _ => Except Error Unit
  | write _ _ => Except Error Unit
  | statTemporary _ => Except Error Int
  | transform _ _ _ _ _ => Except Processor.Error Unit
  | thumbnail _ _ => Except Processor.Error Unit
  | inspect _ _ => Except Processor.Error Processor.Metadata
  | hash _ => Except Error (Int × Digest)
  | statImage _ => Except Error Bool
  | rename _ _ _ => Except Error Unit
  | remove _ _ => Except Error Unit
  | openImage _ => Except OpenError Bytes
  | list _ => Except Error (List FileEntry)
  | openMigration _ => Option MigrationImage

/-- The answer of an action that fails and does nothing. -/
def failed : (a : FileAction) → a.Response
  | createTemporary => .error .storage
  | closeTemporary _ => .error .storage
  | write _ _ => .error .storage
  | statTemporary _ => .error .storage
  | transform _ _ _ _ _ => .error .other
  | thumbnail _ _ => .error .other
  | inspect _ _ => .error .other
  | hash _ => .error .storage
  | statImage _ => .error .storage
  | rename _ _ _ => .error .storage
  | remove _ _ => .error .storage
  | openImage _ => .error .failed
  | list _ => .error .storage
  | openMigration _ => none

end FileAction

/-- A processor call: its result is the choice's, and so is what the output file holds. -/
def Files.process (f : Files) (now : Time) (output : GoString) :
    Choice → Option (Except Processor.Error Unit × Files)
  | .processed failure left =>
      some (failure.elim (.ok ()) .error,
        match left with
        | some content => f.put .temporary output ⟨.regular content, now⟩
        | none => f.drop .temporary output)
  | _ => none

/-- Only a file that is there can be renamed, and only onto a free name or a regular file. -/
def Files.renameTo (f : Files) (path : GoString) (folder : Folder) (key : GoString) :
    Except Error Unit × Files :=
  if key = str "." then (.error .storage, f)
  else
    match f.temporary.lookup path, (f.directory folder).lookup key with
    | some _, some ⟨.other _, _⟩ => (.error .storage, f)
    | some entry, _ =>
        let moved := (f.drop .temporary path).put folder key entry
        (.ok (),
          if folder = .images then { moved with lastWrite := moved.lastWrite.insert key entry.modifiedAt }
          else moved)
    | none, _ => (.error .storage, f)

def Files.perform (f : Files) (now : Time) : (a : FileAction) → Choice → Option (a.Response × Files)
  | .createTemporary, .name path =>
      if path ∉ f.handedOut ∧ path ∉ f.temporary then
        some (.ok path,
          { f.put .temporary path ⟨.regular [], now⟩ with handedOut := insert path f.handedOut })
      else none
  | .closeTemporary _, .normal => some (.ok (), f)
  | .write path content, .normal =>
      match f.temporary.lookup path with
      | none => some (.ok (), f) -- the open file has been unlinked; its name stays gone
      | some _ => some (.ok (), f.put .temporary path ⟨.regular content, now⟩)
  | .write path content, .partialWrite bytes =>
      match f.temporary.lookup path with
      | none => some (.error .storage, f)
      | some _ => some (.error .storage, f.put .temporary path ⟨.regular (content.take bytes), now⟩)
  | .statTemporary path, .normal =>
      match f.temporary.lookup path with
      | none => some (.error .storage, f)
      | some entry => some (.ok (entryOf path entry).size, f)
  | .transform _ output _ _ _, choice => f.process now output choice
  | .thumbnail _ output, choice => f.process now output choice
  | .inspect file limits, .normal =>
      match f.read file with
      | none => some (.error .other, f)
      | some ⟨.other _, _⟩ => some (.error .invalidImage, f)
      | some ⟨.regular content, _⟩ => some (Processor.inspectFile P content limits, f)
  | .hash path, .normal =>
      match f.temporary.lookup path with
      | some ⟨.regular content, _⟩ => some (.ok (content.length, P.sha256 content), f)
      | _ => some (.error .storage, f)
  | .statImage key, .normal => some (.ok (key == str "." || (f.images.lookup key).isSome), f)
  | .rename path folder key, .normal => some (f.renameTo path folder key)
  | .remove folder key, .normal => some (.ok (), f.drop folder key)
  | .openImage key, .normal => some (openRegular f.images key, f)
  | .list folder, .normal => some (.ok (listDirectory (f.directory folder)), f)
  | .openMigration path, .normal => some (openMigrationImage P f.migrations path, f)
  | a, .fault => some (a.failed, f)
  | _, _ => none

end Storage

end ImageSilo
