import ImageSilo.Storage.Migrations

/-! The removal of a migration image with calls that may fail and the loop that climbs by `path.Dir`. -/
namespace ImageSilo.Storage

open Go

/-- `path.Dir`. -/
def dir (p : GoString) : GoString := clean (p.reverse.dropWhile fun c => c != slash).reverse

/-- The calls that fail although the tree gives no reason; each name is looked at once by each of them. -/
structure Faults where
  openRoot : Bool
  inspectComponent : GoString → Bool
  readFile : Bool
  removeFile : Bool
  inspectDirectory : GoString → Bool
  removeDirectory : GoString → Bool

namespace Faults

def none : Faults := ⟨false, fun _ => false, false, false, fun _ => false, fun _ => false⟩

variable (faults : Faults)

/-- `root.Lstat`. -/
def lstat (fails : GoString → Bool) (tree : Tree) (name : GoString) : Except OpenError TreeNode :=
  if fails name then .error .failed else tree.lstatNode name

/-- `root.Remove`. -/
def removes (fails : GoString → Bool) (tree : Tree) (name : GoString) : Except RemoveError Tree :=
  if fails name then .error .failed else tree.remove name

def validateComponents (tree : Tree) : TreePath → TreePath → Except RemoveError Unit
  | _, [] => .ok ()
  | current, component :: rest =>
      match lstat faults.inspectComponent tree (join slash (current ++ [component])) with
      | .error .notExist => .error .notExist
      | .error .failed => .error .failed
      | .ok (.symlink _) => .error .unsafePath
      | .ok .directory => validateComponents tree (current ++ [component]) rest
      | .ok _ => if rest = [] then .ok () else .error .unsafePath

def validateMigrationDeletePath (tree : Tree) (relativePath : GoString) : Except RemoveError Unit :=
  if relativePath = [] ∨ !validPath relativePath ∨ containsAny relativePath (0 :: str "\\") then
    .error .failed
  else faults.validateComponents tree [] (split slash relativePath)

/-- The loop over the directories; `none` if the fuel is used up. -/
def removeEmptyDirectories :
    Nat → Tree → MigrationDeleteResult → GoString → Option (MigrationDeleteResult × Tree)
  | 0, _, _, _ => Option.none
  | fuel + 1, tree, result, directory =>
      if directory = str "." then some (result, tree)
      else
        match lstat faults.inspectDirectory tree directory with
        | .error .notExist => removeEmptyDirectories fuel tree result (dir directory)
        | .error .failed => some ({ result with cleanupPending := true }, tree)
        | .ok .directory =>
            match removes faults.removeDirectory tree directory with
            | .ok tree =>
                removeEmptyDirectories fuel tree
                  { result with removedDirectories := result.removedDirectories + 1 } (dir directory)
            | .error .notExist => removeEmptyDirectories fuel tree result (dir directory)
            | .error .notEmpty => some (result, tree)
            | .error _ => some ({ result with cleanupPending := true }, tree)
        | .ok _ => some ({ result with cleanupPending := true }, tree)

def removeMigrationImage (fuel : Nat) (P : Platform) (tree : Tree) (relativePath : GoString) :
    Option (Except RemoveError MigrationDeleteResult × Tree) :=
  if faults.openRoot then some (.error .failed, tree)
  else
    match faults.validateMigrationDeletePath tree relativePath with
    | .error e => some (.error e, tree)
    | .ok () =>
        match faults.readFile, openMigrationImage P tree.lstat relativePath with
        | false, some _ =>
            match removes (fun _ => faults.removeFile) tree relativePath with
            | .error e => some (.error e, tree)
            | .ok removed =>
                (faults.removeEmptyDirectories fuel removed ⟨0, false⟩ (dir relativePath)).map
                  fun (result, cleaned) => (.ok result, cleaned)
        | _, _ => some (.error .failed, tree)

end Faults

section Names

variable {path : TreePath} {name : GoString}

/-- Elements that are names go onto the stack as they are. -/
theorem foldl_cleanStep {stack : List GoString} (named : ∀ part ∈ path, isFileName part = true) :
    path.foldl (cleanStep false) stack = path.reverse ++ stack := by
  induction path generalizing stack with
  | nil => rfl
  | cons part path ih =>
      obtain ⟨nonempty, dot, dots, -⟩ := isFileName_spec (named part List.mem_cons_self)
      have step : cleanStep false stack part = part :: stack := by
        unfold cleanStep
        rw [if_neg (by simp [nonempty, dot]), if_neg dots]
      rw [List.foldl_cons, step, ih fun p member => named p (List.mem_cons_of_mem _ member)]
      simp

theorem clean_join_slash (nonempty : path ≠ []) (named : ∀ part ∈ path, isFileName part = true) :
    clean (join slash path ++ [slash]) = join slash path := by
  have plain : ∀ part ∈ path ++ [[]], slash ∉ part := by
    intro part member
    rcases List.mem_append.mp member with inside | last
    · exact (isFileName_spec (named part inside)).2.2.2
    · rw [List.mem_singleton.mp last]
      simp
  have joined : join slash path ++ [slash] = join slash (path ++ [[]]) := by
    rw [join_append nonempty (by simp)]
    rfl
  obtain ⟨first, rest, rfl⟩ := List.exists_cons_of_ne_nil nonempty
  have head := (isFileName_spec (named first List.mem_cons_self))
  have relative : hasPrefix (join slash (first :: rest) ++ [slash]) (str "/") = false := by
    obtain ⟨c, first, rfl⟩ := List.exists_cons_of_ne_nil head.1
    have other : c ≠ slash := fun same => head.2.2.2 (same ▸ List.mem_cons_self)
    have front : ∃ more, join slash ((c :: first) :: rest) ++ [slash] = c :: more := by
      cases rest <;> exact ⟨_, rfl⟩
    obtain ⟨more, front⟩ := front
    rw [front]
    change (slash == c && true) = false
    simpa using Ne.symm other
  have folded : (first :: rest ++ [[]]).foldl (cleanStep false) [] = (first :: rest).reverse := by
    rw [List.foldl_append, foldl_cleanStep named, List.append_nil]
    rfl
  unfold clean
  rw [relative, joined, split_join (by simp) plain]
  have filled : join slash (first :: rest) ≠ [] := by
    intro empty
    have parts : split slash (join slash (first :: rest)) = first :: rest :=
      split_join (by simp) fun part member => (isFileName_spec (named part member)).2.2.2
    rw [empty] at parts
    obtain ⟨rfl, -⟩ := List.cons.inj parts
    exact head.1 rfl
  simp only [folded, List.reverse_reverse, Bool.false_eq_true, if_false, filled]

/-- The directory of a name is the name without its last element. -/
theorem dir_join (named : ∀ part ∈ path, isFileName part = true) (plain : slash ∉ name) :
    dir (join slash (path ++ [name])) = if path = [] then str "." else join slash path := by
  have bare : name.reverse.dropWhile (fun c => c != slash) = [] := by
    rw [List.dropWhile_eq_nil_iff]
    intro c member
    have other : c ≠ slash := fun same => plain (same ▸ List.mem_reverse.mp member)
    simpa using other
  unfold dir
  split
  · rename_i empty
    rw [empty]
    change clean (name.reverse.dropWhile _).reverse = _
    rw [bare]
    rfl
  · rename_i nonempty
    rw [join_append nonempty (by simp)]
    change clean ((join slash path ++ slash :: name).reverse.dropWhile _).reverse = _
    rw [List.reverse_append, List.reverse_cons, List.append_assoc,
      List.dropWhile_append_of_pos (by
        intro c member
        have other : c ≠ slash := fun same => plain (same ▸ List.mem_reverse.mp member)
        simpa using other)]
    change clean (List.dropWhile (fun c => c != slash) (slash :: (join slash path).reverse)).reverse = _
    rw [List.dropWhile_cons_of_neg (by simp), List.reverse_cons, List.reverse_reverse]
    exact clean_join_slash nonempty named

/-- The elements of a valid path are names. -/
theorem valid_names {name : GoString} (valid : validPath name = true) (other : name ≠ str ".") :
    ∀ part ∈ split slash name, isFileName part = true := by
  intro part member
  simp only [validPath, Bool.and_eq_true, Bool.or_eq_true, beq_iff_eq, List.all_eq_true,
    bne_iff_ne] at valid
  have elements := valid.2.resolve_left other part member
  simp [isFileName, elements.1.1, elements.1.2, elements.2, split_plain_members member]

/-- The name of the directory that the path has at this length. -/
def directoryName (path : TreePath) (n : Nat) : GoString :=
  if n = 0 then str "." else join slash (path.take n)

theorem dir_take (named : ∀ part ∈ path, isFileName part = true) {n : Nat} (short : n < path.length) :
    dir (join slash (path.take (n + 1))) = directoryName path n := by
  have split : path.take (n + 1) = path.take n ++ [path[n]] := (List.take_append_getElem short).symm
  rw [split, dir_join (fun part member => named part (List.mem_of_mem_take member))
    (isFileName_spec (named _ (List.getElem_mem short))).2.2.2]
  have empty : path.take n = [] ↔ n = 0 := by
    rw [List.take_eq_nil_iff]
    refine or_iff_left_of_imp ?_
    rintro rfl
    cases short
  unfold directoryName
  simp only [empty]

theorem join_ne_dot {front : TreePath} (nonempty : front ≠ [])
    (named : ∀ part ∈ front, isFileName part = true) : join slash front ≠ str "." := by
  intro same
  have parts := split_join nonempty fun part member => (isFileName_spec (named part member)).2.2.2
  rw [same] at parts
  have dot := named (str ".") (parts ▸ List.mem_singleton_self _)
  cases dot

end Names

section Faultless

variable {P : Platform} {tree : Tree} {path : TreePath}

theorem validateComponents_faultless (current rest : TreePath) :
    Faults.none.validateComponents tree current rest = validateComponents tree current rest := by
  induction rest generalizing current with
  | nil => rfl
  | cons component rest ih =>
      rw [Faults.validateComponents, validateComponents]
      simp only [Faults.lstat, Faults.none, Bool.false_eq_true, if_false]
      rw [← ih]
      rfl

/-- The loop by names is the loop over the elements of the path. -/
theorem removeEmptyDirectories_faultless (named : ∀ part ∈ path, isFileName part = true) {n : Nat}
    (short : n < path.length) {fuel : Nat} (enough : n < fuel) (result : MigrationDeleteResult) :
    Faults.none.removeEmptyDirectories fuel tree result (directoryName path n) =
      some (removeEmptyDirectories tree result (path.take n).reverse) := by
  induction n generalizing fuel tree result with
  | zero =>
      obtain ⟨fuel, rfl⟩ := Nat.exists_eq_succ_of_ne_zero enough.ne'
      rw [Faults.removeEmptyDirectories]
      exact if_pos rfl
  | succ n ih =>
      obtain ⟨fuel, rfl⟩ := Nat.exists_eq_succ_of_ne_zero (Nat.ne_zero_of_lt enough)
      have above := (Nat.lt_succ_self n).trans short
      have filled : path.take (n + 1) ≠ [] := by
        intro none
        have long := congrArg List.length none
        rw [List.length_take_of_le short.le] at long
        cases long
      have names : ∀ part ∈ path.take (n + 1), isFileName part = true :=
        fun part member => named part (List.mem_of_mem_take member)
      have next : ∀ tree result, Faults.none.removeEmptyDirectories fuel tree result
          (dir (join slash (path.take (n + 1)))) =
            some (removeEmptyDirectories tree result (path.take n).reverse) := by
        intro tree result
        rw [dir_take named above]
        exact ih above (Nat.lt_of_succ_lt_succ enough) result
      have name : directoryName path (n + 1) = join slash (path.take (n + 1)) := if_neg (by simp)
      have split : (path.take (n + 1)).reverse = path[n] :: (path.take n).reverse := by
        rw [← List.take_append_getElem above, List.reverse_append]
        rfl
      rw [name, Faults.removeEmptyDirectories, if_neg (join_ne_dot filled names), split,
        removeEmptyDirectories, ← split, List.reverse_reverse]
      simp only [Faults.lstat, Faults.removes, next]
      simp only [Faults.none, Bool.false_eq_true, if_false]
      cases tree.lstatNode (join slash (path.take (n + 1))) with
      | error e => cases e <;> rfl
      | ok node =>
          cases node with
          | directory =>
              cases tree.remove (join slash (path.take (n + 1))) with
              | error e => cases e <;> rfl
              | ok tree => rfl
          | _ => rfl

/-- Where no call fails by itself this is the removal as it was. -/
theorem removeMigrationImage_faultless {relativePath : GoString} {fuel : Nat}
    (enough : (split slash relativePath).length ≤ fuel) :
    Faults.none.removeMigrationImage fuel P tree relativePath =
      some (removeMigrationImage P tree relativePath) := by
  have checked : Faults.none.validateMigrationDeletePath tree relativePath =
      validateMigrationDeletePath tree relativePath := by
    unfold Faults.validateMigrationDeletePath validateMigrationDeletePath
    rw [validateComponents_faultless]
  have removes : Faults.removes (fun _ => Faults.none.removeFile) tree relativePath =
      tree.remove relativePath := rfl
  unfold Faults.removeMigrationImage removeMigrationImage
  rw [if_neg (by simp [Faults.none]), checked, removes]
  cases accepted : validateMigrationDeletePath tree relativePath with
  | error e => rfl
  | ok u =>
      cases opened : openMigrationImage P tree.lstat relativePath with
      | none => rfl
      | some image =>
          cases removed : tree.remove relativePath with
          | error e => rfl
          | ok tree' =>
              obtain ⟨found, ⟨-, valid, -⟩, -⟩ := openMigrationImage_some.mp opened
              have other : relativePath ≠ str "." := by
                rintro rfl
                have root : tree.lstat (str ".") = some .other := rfl
                rw [root] at found
                cases found
              have named := valid_names valid other
              obtain ⟨n, long⟩ := Nat.exists_eq_succ_of_ne_zero
                (List.length_pos_iff.mpr (split_ne_nil relativePath)).ne'
              have above : dir relativePath = directoryName (split slash relativePath) n := by
                rw [← dir_take named (by omega), List.take_of_length_le long.le, join_split]
              have rest : (split slash relativePath).reverse.tail =
                  ((split slash relativePath).take n).reverse := by
                rw [List.tail_reverse, List.dropLast_eq_take, long]
                rfl
              have short : n < (split slash relativePath).length := by omega
              have run := @removeEmptyDirectories_faultless tree' _ named n short fuel (by omega) ⟨0, false⟩
              change Option.map _ (Faults.none.removeEmptyDirectories fuel tree' ⟨0, false⟩
                (dir relativePath)) = _
              rw [above, run, rest]
              rfl

end Faultless

end ImageSilo.Storage
