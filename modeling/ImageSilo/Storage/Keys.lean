import ImageSilo.Go.Filepath
import ImageSilo.Storage.Pruning

/-! The paths that the keys of the three directories stand for, and the removals under a key. -/
namespace ImageSilo.Storage

open Go

structure Filesystem where
  imagesDirectory : GoString
  migrationsDirectory : GoString
  thumbnailsDirectory : GoString
  temporaryDirectory : GoString

def newFilesystem (dataDirectory : GoString) : Filesystem where
  imagesDirectory := filepathJoin [dataDirectory, str "images"]
  migrationsDirectory := filepathJoin [dataDirectory, str "migrations"]
  thumbnailsDirectory := filepathJoin [dataDirectory, str "cache", str "thumbnails"]
  temporaryDirectory := filepathJoin [dataDirectory, str "tmp"]

inductive KeyError
  | invalidKey (text : GoString)
  /-- `os.Remove` failed; the text stands before its error. -/
  | removal (text : GoString)
  deriving DecidableEq

/-- The check and the path of the keys of two of the directories. -/
def resolveKey (directory text key : GoString) : Except KeyError GoString :=
  if key = [] ∨ key ≠ base key ∨ containsAny key (str "/\\" ++ [0]) ∨ !validPath key then
    .error (.invalidKey text)
  else .ok (filepathJoin [directory, key])

def resolveStorageKey (f : Filesystem) (storageKey : GoString) : Except KeyError GoString :=
  if storageKey = [] ∨ storageKey ≠ base storageKey ∨ containsAny storageKey (str "/\\" ++ [0]) then
    .error (.invalidKey (str "invalid storage key"))
  else
    let path := filepathJoin [f.imagesDirectory, storageKey]
    if !validPath storageKey then .error (.invalidKey (str "invalid storage key")) else .ok path

def resolveThumbnailKey (f : Filesystem) (imageID : GoString) : Except KeyError GoString :=
  resolveKey f.thumbnailsDirectory (str "invalid thumbnail key") imageID

def resolveTemporaryKey (f : Filesystem) (key : GoString) : Except KeyError GoString :=
  resolveKey f.temporaryDirectory (str "invalid temporary key") key

inductive DiskNode
  | file
  | directory
  deriving DecidableEq

abbrev Disk := Finmap fun _ : GoString => DiskNode

/-- `os.Remove`, which may also fail for reasons of its own. -/
def osRemove (disk : Disk) (path : GoString) (fails : Bool) : Except RemoveError Unit × Disk :=
  if fails then (.error .failed, disk)
  else
    match disk.lookup path with
    | none => (.error .notExist, disk)
    | some .file => (.ok (), disk.erase path)
    | some .directory =>
        if disk.keys.filter (fun p => filepathDir p = path ∧ p ≠ path) = ∅ then
          (.ok (), disk.erase path)
        else (.error .failed, disk)

/-- Removes what a key stands for; that there is nothing is no error. -/
def removeResolved (text : GoString) (resolved : Except KeyError GoString) (disk : Disk)
    (fails : Bool) : Except KeyError Unit × Disk :=
  match resolved with
  | .error e => (.error e, disk)
  | .ok path =>
      match osRemove disk path fails with
      | (.ok _, disk) => (.ok (), disk)
      | (.error .notExist, disk) => (.ok (), disk)
      | (.error _, disk) => (.error (.removal text), disk)

def remove (f : Filesystem) (disk : Disk) (fails : Bool) (storageKey : GoString) :
    Except KeyError Unit × Disk :=
  removeResolved (str "remove stored image") (resolveStorageKey f storageKey) disk fails

def removeThumbnail (f : Filesystem) (disk : Disk) (fails : Bool) (imageID : GoString) :
    Except KeyError Unit × Disk :=
  removeResolved (str "remove thumbnail") (resolveThumbnailKey f imageID) disk fails

def removeTemporaryKey (f : Filesystem) (disk : Disk) (fails : Bool) (key : GoString) :
    Except KeyError Unit × Disk :=
  removeResolved (str "remove temporary file") (resolveTemporaryKey f key) disk fails

section Resolution

variable {f : Filesystem} {directory text key path : GoString}

/-- The path is joined before the last check of a storage key, which makes no difference. -/
theorem resolveStorageKey_eq (f : Filesystem) (storageKey : GoString) :
    resolveStorageKey f storageKey =
      resolveKey f.imagesDirectory (str "invalid storage key") storageKey := by
  unfold resolveStorageKey resolveKey
  by_cases front : storageKey = [] ∨ storageKey ≠ base storageKey ∨
      containsAny storageKey (str "/\\" ++ [0]) = true
  · rw [if_pos front, if_pos (by
      rcases front with empty | other | special
      · exact .inl empty
      · exact .inr (.inl other)
      · exact .inr (.inr (.inl special)))]
  · rw [if_neg front]
    obtain ⟨nonempty, rest⟩ := not_or.mp front
    obtain ⟨same, plain⟩ := not_or.mp rest
    by_cases valid : validPath storageKey = true
    · rw [if_neg (by simp [valid]), if_neg]
      rintro (empty | other | special | invalid)
      · exact nonempty empty
      · exact same other
      · exact plain special
      · simp [valid] at invalid
    · rw [if_pos (by simpa using valid), if_pos (.inr (.inr (.inr (by simpa using valid))))]

/-- The keys that are accepted are those that the directories of the system are indexed by. -/
theorem resolveKey_ok : resolveKey directory text key = .ok path ↔
    validKey key = true ∧ path = filepathJoin [directory, key] := by
  have set : containsAny key (str "/\\" ++ [0]) = containsAny key (0 :: str "/\\") := by
    unfold containsAny
    congr
    funext c
    rw [List.contains_eq_mem, List.contains_eq_mem, decide_eq_decide, List.mem_append,
      List.mem_singleton, List.mem_cons]
    exact or_comm
  unfold resolveKey validKey
  rw [set]
  by_cases accepted : key = [] ∨ key ≠ base key ∨ containsAny key (0 :: str "/\\") = true ∨
      (!validPath key) = true
  · rw [if_pos accepted]
    constructor
    · intro same
      cases same
    · rintro ⟨valid, -⟩
      simp only [Bool.and_eq_true, bne_iff_ne, beq_iff_eq, Bool.not_eq_true'] at valid
      obtain ⟨⟨⟨nonempty, same⟩, plain⟩, valid⟩ := valid
      rcases accepted with empty | other | special | invalid
      · exact absurd empty nonempty
      · exact absurd same other
      · rw [plain] at special
        cases special
      · rw [valid] at invalid
        cases invalid
  · rw [if_neg accepted]
    simp only [not_or, Bool.not_eq_true, Bool.not_eq_false'] at accepted
    obtain ⟨nonempty, same, plain, valid⟩ := accepted
    have same : key = base key := not_not.mp same
    constructor
    · intro resolved
      refine ⟨?_, (Except.ok.inj resolved).symm⟩
      simp only [Bool.and_eq_true, bne_iff_ne, beq_iff_eq, Bool.not_eq_true']
      exact ⟨⟨⟨nonempty, same⟩, plain⟩, valid⟩
    · rintro ⟨-, rfl⟩
      rfl

/-- An accepted key is a name, unless it is a dot. -/
theorem validKey_name (valid : validKey key = true) (dotless : key ≠ str ".") : IsName key := by
  simp only [validKey, Bool.and_eq_true, bne_iff_ne, Bool.not_eq_true'] at valid
  obtain ⟨⟨⟨nonempty, -⟩, plain⟩, valid⟩ := valid
  have slashless : slash ∉ key := by
    intro member
    have special : containsAny key (0 :: str "/\\") = true :=
      List.any_eq_true.mpr ⟨slash, member, rfl⟩
    rw [plain] at special
    cases special
  refine ⟨⟨nonempty, dotless, slashless⟩, ?_⟩
  rintro rfl
  revert valid
  decide

/-- A removal touches nothing but the path of its key. -/
theorem removeResolved_frame {resolved : Except KeyError GoString} {disk : Disk} {fails : Bool}
    {other : GoString} (elsewhere : resolved ≠ .ok other) :
    (removeResolved text resolved disk fails).2.lookup other = disk.lookup other := by
  have kept : ∀ path, resolved = .ok path →
      (osRemove disk path fails).2.lookup other = disk.lookup other := by
    intro path same
    have differs : other ≠ path := by
      rintro rfl
      exact elsewhere same
    unfold osRemove
    split
    · rfl
    split
    · rfl
    · exact Finmap.lookup_erase_ne differs
    · split
      · exact Finmap.lookup_erase_ne differs
      · rfl
  cases resolved with
  | error e => rfl
  | ok path =>
      have here := kept path rfl
      unfold removeResolved
      dsimp only
      split
      · rename_i removed
        rw [removed] at here
        exact here
      · rename_i removed
        rw [removed] at here
        exact here
      · rename_i removed
        rw [removed] at here
        exact here

end Resolution

end ImageSilo.Storage
