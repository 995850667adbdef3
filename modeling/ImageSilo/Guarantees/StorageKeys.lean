import ImageSilo.Storage.Keys

/-! A key stands for a child of its directory, and a removal under it touches that child alone. -/
namespace ImageSilo.Storage

open Go

/-- What is expected of a key in a directory, given how keys are resolved and removed there. -/
structure StaysInside (directory : GoString) (resolve : GoString → Except KeyError GoString)
    (removes : Disk → Bool → GoString → Except KeyError Unit × Disk) (key : GoString) : Prop where
  child : ∀ path, resolve key = .ok path → filepathDir path = directory ∧ base path = key
  outside : ∀ disk fails path, filepathDir path ≠ directory ∨ path = directory →
    (removes disk fails key).2.lookup path = disk.lookup path
  distinct : ∀ other path, resolve key = .ok path → resolve other = .ok path → other = key

section Directories

variable {directory text removal key : GoString} {p : GoString}

/-- A key but the dot stays inside. -/
theorem staysInside_of_name (dotless : key ≠ str ".") (p text removal : GoString) :
    StaysInside (clean p) (resolveKey (clean p) text)
      (fun disk fails key => removeResolved removal (resolveKey (clean p) text key) disk fails) key := by
  have child : ∀ path, resolveKey (clean p) text key = .ok path →
      IsName key ∧ path = filepathJoin [clean p, key] := by
    intro path resolved
    obtain ⟨valid, rfl⟩ := resolveKey_ok.mp resolved
    exact ⟨validKey_name valid dotless, rfl⟩
  constructor
  · intro path resolved
    obtain ⟨name, rfl⟩ := child path resolved
    exact filepathDir_child name p
  · intro disk fails path away
    refine removeResolved_frame ?_
    intro resolved
    obtain ⟨name, rfl⟩ := child path resolved
    rcases away with elsewhere | itself
    · exact elsewhere (filepathDir_child name p).1
    · exact child_ne name p itself
  · intro other path resolved resolved'
    obtain ⟨name, rfl⟩ := child path resolved
    obtain ⟨valid, same⟩ := resolveKey_ok.mp resolved'
    by_cases dot : other = str "."
    · rw [dot, filepathJoin_dot] at same
      exact absurd same (child_ne name p)
    · have last := (filepathDir_child (validKey_name valid dot) p).2
      rw [← same, (filepathDir_child name p).2] at last
      exact last.symm

/-- The dot does not, in a directory with a name. -/
theorem staysInside_iff (named : base (clean p) ≠ str ".") (text removal key : GoString) :
    StaysInside (clean p) (resolveKey (clean p) text)
      (fun disk fails key => removeResolved removal (resolveKey (clean p) text key) disk fails) key ↔
        key ≠ str "." := by
  constructor
  · rintro inside rfl
    have resolved : resolveKey (clean p) text (str ".") = .ok (clean p) :=
      resolveKey_ok.mpr ⟨by decide, (filepathJoin_dot p).symm⟩
    exact named (inside.child _ resolved).2
  · intro dotless
    exact staysInside_of_name dotless p text removal

/-- The directories are cleaned paths that end in a name. -/
theorem named_directory (name : IsName key) (elements : List GoString) :
    ∃ p, filepathJoin (elements ++ [key]) = clean p ∧ base (clean p) = key := by
  have first : ∀ q : GoString, q ≠ [] → base (clean (q ++ slash :: key)) = key := by
    intro q nonempty
    rw [clean_child nonempty name, rendered_child name.1.1]
    exact base_append name.1 (leading_ends _ _)
  have alone : clean key = key := by
    have settled : SettledStack false [key] := ⟨name.1, fun upwards => absurd upwards name.2, trivial⟩
    obtain ⟨root, stack⟩ := stackOf_written settled name.1.1
    change isRooted key = false at root
    change stackOf key = [key] at stack
    rw [clean_eq, root, stack, rendered_child name.1.1]
    rfl
  unfold filepathJoin
  induction elements with
  | nil =>
      have kept : (key == []) = false := beq_false_of_ne name.1.1
      refine ⟨key, ?_, ?_⟩
      · rw [List.nil_append, List.dropWhile_cons_of_neg (by rw [kept]; decide)]
        rfl
      · rw [alone]
        exact base_of_slashless name.1.1 name.1.2.2
  | cons element elements ih =>
      by_cases empty : element = []
      · subst empty
        exact ih
      · have kept : (element == []) = false := beq_false_of_ne empty
        rw [List.cons_append, List.dropWhile_cons_of_neg (by rw [kept]; decide)]
        have whole : join slash (element :: (elements ++ [key])) =
            join slash (element :: elements) ++ slash :: key :=
          join_append (List.cons_ne_nil element elements) (List.cons_ne_nil key [])
        have nonempty : join slash (element :: elements) ≠ [] := by
          cases elements with
          | nil => exact empty
          | cons next later =>
              intro none
              exact empty (List.append_eq_nil_iff.mp none).1
        exact ⟨_, rfl, by rw [whole]; exact first _ nonempty⟩

end Directories

/-- In each directory every key but the dot stays inside. -/
theorem keys_stay_inside_iff (dataDirectory key : GoString) :
    let f := newFilesystem dataDirectory
    (StaysInside f.imagesDirectory (resolveStorageKey f) (remove f) key ↔ key ≠ str ".") ∧
      (StaysInside f.thumbnailsDirectory (resolveThumbnailKey f) (removeThumbnail f) key ↔
        key ≠ str ".") ∧
      (StaysInside f.temporaryDirectory (resolveTemporaryKey f) (removeTemporaryKey f) key ↔
        key ≠ str ".") := by
  have names : ∀ name ∈ [str "images", str "thumbnails", str "tmp"], IsName name ∧ name ≠ str "." := by
    unfold IsName IsElement
    decide
  intro f
  refine ⟨?_, ?_, ?_⟩
  · obtain ⟨name, named⟩ := names (str "images") (by simp)
    obtain ⟨p, same, last⟩ := named_directory name [dataDirectory]
    have directory : f.imagesDirectory = clean p := same
    have resolved : resolveStorageKey f = resolveKey (clean p) (str "invalid storage key") := by
      funext other
      rw [resolveStorageKey_eq, directory]
    unfold remove
    rw [directory, resolved]
    exact staysInside_iff (last ▸ named) _ _ _
  · obtain ⟨name, named⟩ := names (str "thumbnails") (by simp)
    obtain ⟨p, same, last⟩ := named_directory name [dataDirectory, str "cache"]
    have directory : f.thumbnailsDirectory = clean p := same
    unfold removeThumbnail resolveThumbnailKey
    rw [directory]
    exact staysInside_iff (last ▸ named) _ _ _
  · obtain ⟨name, named⟩ := names (str "tmp") (by simp)
    obtain ⟨p, same, last⟩ := named_directory name [dataDirectory]
    have directory : f.temporaryDirectory = clean p := same
    unfold removeTemporaryKey resolveTemporaryKey
    rw [directory]
    exact staysInside_iff (last ▸ named) _ _ _

/-- The key of one dot, in an images directory that is empty: the directory is gone afterwards. -/
theorem dot_removes_directory : ¬ ∀ dataDirectory key : GoString,
    let f := newFilesystem dataDirectory
    StaysInside f.imagesDirectory (resolveStorageKey f) (remove f) key ∧
      StaysInside f.thumbnailsDirectory (resolveThumbnailKey f) (removeThumbnail f) key ∧
      StaysInside f.temporaryDirectory (resolveTemporaryKey f) (removeTemporaryKey f) key := by
  intro all
  have kept := (all (str "/data") (str ".")).1.outside
    (Finmap.singleton (str "/data/images") DiskNode.directory) false (str "/data/images")
    (.inr (by decide +kernel))
  revert kept
  decide +kernel

end ImageSilo.Storage
