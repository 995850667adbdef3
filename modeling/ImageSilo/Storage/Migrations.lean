import ImageSilo.Storage.Filesystem

/-! The tree of migration files, where names are looked up the way `os.Root` does it. -/
namespace ImageSilo.Storage

open Go

abbrev TreePath := List GoString

def isFileName (name : GoString) : Bool :=
  name != [] && name != str "." && name != str ".." && !name.contains slash

inductive TreeNode
  | directory
  | regular (content : Bytes) (modifiedAt : Time)
  | symlink (target : GoString)
  | other
  deriving DecidableEq

structure Tree where
  node : Finmap fun _ : TreePath => TreeNode
  named : ∀ path ∈ node.keys, path ≠ [] ∧ ∀ name ∈ path, isFileName name = true
  rooted : ∀ path ∈ node.keys,
    path.dropLast = [] ∨ node.lookup path.dropLast = some .directory

namespace Tree

def at? (tree : Tree) (path : TreePath) : Option TreeNode :=
  if path = [] then some .directory else tree.node.lookup path

/-- The elements of a name that lead somewhere. -/
def components (name : GoString) : TreePath :=
  (split slash name).filter fun part => part != [] && part != str "."

/-- Whether a name ends in a separator or in `.`, so that only a directory can have it. -/
def asksDirectory (name : GoString) : Bool :=
  (split slash name).getLast?.any fun part => part == [] || part == str "."

/-- The elements of a name in front of those that follow it. What the end of the name asks for counts
only if none do, and stays as a final `.` then. -/
def splitPathInRoot (name : GoString) (rest : TreePath) : Except OpenError TreePath :=
  if name = [] ∨ hasPrefix name (str "/") then .error .failed
  else if rest = [] ∧ asksDirectory name then .ok (components name ++ [str "."])
  else .ok (components name ++ rest)

/-- Walks down to the last element, and on after it if it is a link that is to be followed; `follow`
goes on after a symbolic link. -/
def descendWith (tree : Tree) (followLast : Bool)
    (follow : TreePath → TreePath → Except OpenError TreePath) :
    TreePath → TreePath → Except OpenError TreePath
  | walked, [] => .ok walked
  | walked, part :: parts =>
      if part = str "." then tree.descendWith followLast follow walked parts
      else if part = str ".." then
        if walked = [] then .error .failed
        else tree.descendWith followLast follow walked.dropLast parts
      else if parts = [] ∧ !followLast then .ok (walked ++ [part])
      else
        match tree.at? (walked ++ [part]) with
        | none => .error .notExist
        | some .directory => tree.descendWith followLast follow (walked ++ [part]) parts
        | some (.symlink target) => (splitPathInRoot target parts).bind (follow walked)
        | some _ => if parts = [] then .ok (walked ++ [part]) else .error .failed

/-- The same with a bound on the links that are followed. -/
def descend (tree : Tree) (followLast : Bool) :
    Nat → TreePath → TreePath → Except OpenError TreePath
  | 0 => tree.descendWith followLast fun _ _ => .error .failed
  | links + 1 => tree.descendWith followLast (tree.descend followLast links)

def rootMaxSymlinks : Nat := 8

def nodeAt (tree : Tree) (path : TreePath) : Except OpenError TreeNode :=
  match tree.at? path with
  | none => .error .notExist
  | some node => .ok node

/-- Where a name leads, its last element not followed. -/
def resolve (tree : Tree) (name : GoString) : Except OpenError TreePath :=
  (splitPathInRoot name []).bind (tree.descend false rootMaxSymlinks [])

/-- `root.Lstat`. -/
def lstatNode (tree : Tree) (name : GoString) : Except OpenError TreeNode :=
  (tree.resolve name).bind tree.nodeAt

/-- `root.Open` and `Stat`. -/
def stat (tree : Tree) (name : GoString) : Except OpenError TreeNode :=
  ((splitPathInRoot name []).bind (tree.descend true rootMaxSymlinks [])).bind tree.nodeAt

def ofNode : TreeNode → MigrationNode
  | .regular content modifiedAt => .regular content modifiedAt
  | _ => .other

/-- What `openMigrationImage` looks at. -/
def lstat (tree : Tree) (name : GoString) : Option MigrationNode :=
  match tree.lstatNode name with
  | .error _ => none
  | .ok node => some (ofNode node)

/-- Only directories with a valid name are read. -/
def readable (path : TreePath) : Bool :=
  (List.range path.length).all fun n => n == 0 || validPath (join slash (path.take n))

/-- The entries in the order of their names. -/
def sorted (tree : Tree) : List TreePath := tree.node.keys.sort

/-- The entries in the order of `fs.WalkDir`. -/
def walked (tree : Tree) : List TreePath := tree.node.keys.sort.filter readable

end Tree

structure MigrationFile where
  relativePath : GoString
  mimeType : GoString
  extension : GoString
  size : Int
  modifiedAt : Time

structure MigrationList where
  files : List MigrationFile
  skippedFiles : Nat
  storedBytes : Int

def MigrationList.skip (list : MigrationList) : MigrationList :=
  { list with skippedFiles := list.skippedFiles + 1 }

variable (P : Platform)

/-- The function that the walk calls, also with the error of a directory it cannot read. -/
def visit (tree : Tree) (list : MigrationList) (path : TreePath) : MigrationList :=
  let relativePath := join slash path
  match tree.at? path with
  | none => list
  | some .directory => if validPath relativePath then list else list.skip
  | some (.symlink _) => list.skip
  | some .other => list.skip
  | some (.regular content modifiedAt) =>
      let counted := { list with storedBytes := list.storedBytes + content.length }
      match openMigrationImage P tree.lstat relativePath with
      | none => counted.skip
      | some image =>
          { counted with
            files := list.files ++
              [⟨relativePath, image.mimeType, P.toLower (ext relativePath), content.length,
                modifiedAt⟩] }

def listMigrationImages (tree : Tree) : MigrationList := tree.walked.foldl (visit P tree) ⟨[], 0, 0⟩

inductive RemoveError
  | notExist
  | unsafePath
  | notEmpty
  | failed
  deriving DecidableEq

structure MigrationDeleteResult where
  removedDirectories : Nat
  cleanupPending : Bool
  deriving DecidableEq

namespace Tree

def leaf (tree : Tree) (path : TreePath) : Bool :=
  decide (∀ below ∈ tree.node.keys, below.dropLast ≠ path)

def erase (tree : Tree) (path : TreePath) (isLeaf : tree.leaf path = true) : Tree where
  node := tree.node.erase path
  named := by
    intro other member
    rw [Finmap.keys_erase] at member
    exact tree.named other (Finset.mem_of_mem_erase member)
  rooted := by
    intro other member
    rw [Finmap.keys_erase] at member
    have there := Finset.mem_of_mem_erase member
    rcases tree.rooted other there with top | parent
    · exact .inl top
    · right
      rw [Finmap.lookup_erase_ne]
      · exact parent
      · exact (of_decide_eq_true isLeaf) other there

/-- `root.Remove`. -/
def remove (tree : Tree) (name : GoString) : Except RemoveError Tree :=
  match tree.resolve name with
  | .error .notExist => .error .notExist
  | .error .failed => .error .failed
  | .ok path =>
      match tree.at? path with
      | none => .error .notExist
      | some _ => if isLeaf : tree.leaf path = true then .ok (tree.erase path isLeaf) else .error .notEmpty

end Tree

/-- The loop over the components; those that have been checked are `current`. -/
def validateComponents (tree : Tree) : TreePath → TreePath → Except RemoveError Unit
  | _, [] => .ok ()
  | current, component :: rest =>
      match tree.lstatNode (join slash (current ++ [component])) with
      | .error .notExist => .error .notExist
      | .error .failed => .error .failed
      | .ok (.symlink _) => .error .unsafePath
      | .ok .directory => validateComponents tree (current ++ [component]) rest
      | .ok _ => if rest = [] then .ok () else .error .unsafePath

def validateMigrationDeletePath (tree : Tree) (relativePath : GoString) : Except RemoveError Unit :=
  if relativePath = [] ∨ !validPath relativePath ∨ containsAny relativePath (0 :: str "\\") then
    .error .failed
  else validateComponents tree [] (split slash relativePath)

/-- Removes empty directories upwards; the path is given from its last element on. -/
def removeEmptyDirectories (tree : Tree) (result : MigrationDeleteResult) :
    TreePath → MigrationDeleteResult × Tree
  | [] => (result, tree)
  | name :: above =>
      let directory := join slash (name :: above).reverse
      match tree.lstatNode directory with
      | .error .notExist => removeEmptyDirectories tree result above
      | .error .failed => ({ result with cleanupPending := true }, tree)
      | .ok .directory =>
          match tree.remove directory with
          | .ok tree =>
              removeEmptyDirectories tree
                { result with removedDirectories := result.removedDirectories + 1 } above
          | .error .notExist => removeEmptyDirectories tree result above
          | .error .notEmpty => (result, tree)
          | .error _ => ({ result with cleanupPending := true }, tree)
      | .ok _ => ({ result with cleanupPending := true }, tree)

def removeMigrationImage (tree : Tree) (relativePath : GoString) :
    Except RemoveError MigrationDeleteResult × Tree :=
  match validateMigrationDeletePath tree relativePath with
  | .error e => (.error e, tree)
  | .ok () =>
      match openMigrationImage P tree.lstat relativePath with
      | none => (.error .failed, tree)
      | some _ =>
          match tree.remove relativePath with
          | .error e => (.error e, tree)
          | .ok removed =>
              let (result, cleaned) := removeEmptyDirectories removed ⟨0, false⟩
                (split slash relativePath).reverse.tail
              (.ok result, cleaned)

section Paths

variable {tree : Tree} {path : TreePath}

theorem isFileName_spec {name : GoString} (named : isFileName name = true) :
    name ≠ [] ∧ name ≠ str "." ∧ name ≠ str ".." ∧ slash ∉ name := by
  simpa [isFileName, and_assoc] using named

namespace Tree

theorem splitPathInRoot_join (nonempty : path ≠ []) (named : ∀ name ∈ path, isFileName name = true) :
    splitPathInRoot (join slash path) [] = .ok path := by
  have parts : split slash (join slash path) = path :=
    split_join nonempty fun name member => (isFileName_spec (named name member)).2.2.2
  have elements : components (join slash path) = path := by
    rw [components, parts]
    refine List.filter_eq_self.mpr ?_
    intro name member
    obtain ⟨first, second, -⟩ := isFileName_spec (named name member)
    simp [first, second]
  have plain : asksDirectory (join slash path) = false := by
    rw [asksDirectory, parts, List.getLast?_eq_some_getLast nonempty]
    obtain ⟨first, second, -⟩ := isFileName_spec (named _ (List.getLast_mem nonempty))
    simp [first, second]
  have relative : ¬ (join slash path = [] ∨ hasPrefix (join slash path) (str "/") = true) := by
    obtain ⟨name, rest, rfl⟩ := List.exists_cons_of_ne_nil nonempty
    obtain ⟨first, -, -, clean⟩ := isFileName_spec (named name List.mem_cons_self)
    obtain ⟨c, cs, rfl⟩ := List.exists_cons_of_ne_nil first
    have begins : ∃ tail, join slash ((c :: cs) :: rest) = c :: tail := by
      cases rest with
      | nil => exact ⟨cs, rfl⟩
      | cons second rest => exact ⟨_, rfl⟩
    obtain ⟨tail, eq⟩ := begins
    rw [eq]
    rintro (empty | absolute)
    · cases empty
    · have same : slash = c := by simpa [hasPrefix, str, slash, List.isPrefixOf] using absolute
      exact clean (same ▸ List.mem_cons_self)
  rw [splitPathInRoot, if_neg relative, if_neg (by simp [plain]), elements, List.append_nil]

theorem at?_some {node : TreeNode} (nonempty : path ≠ []) :
    tree.at? path = some node ↔ tree.node.lookup path = some node := by
  rw [at?, if_neg nonempty]

theorem mem_keys {node : TreeNode} (found : tree.node.lookup path = some node) :
    path ∈ tree.node.keys :=
  Finmap.mem_keys.mpr (Finmap.mem_of_lookup_eq_some found)

/-- Every directory above an entry is there. -/
theorem above_directory (member : path ∈ tree.node.keys) {n : Nat} (above : n < path.length) :
    tree.at? (path.take n) = some .directory := by
  induction path using List.reverseRecOn with
  | nil => simp at above
  | append_singleton front name ih =>
      have parent := tree.rooted _ member
      rw [List.dropLast_concat] at parent
      have short : n ≤ front.length := by simpa [Nat.lt_succ_iff] using above
      rw [List.take_append_of_le_length short]
      rcases parent with top | found
      · subst top
        rw [List.take_nil]
        exact if_pos rfl
      · rcases short.lt_or_eq with inside | same
        · exact ih (mem_keys found) inside
        · have nonempty := (tree.named _ (mem_keys found)).1
          rw [same, List.take_length, at?_some nonempty]
          exact found

/-- An element of a path that is not the last one. -/
theorem descendWith_inner {follow : TreePath → TreePath → Except OpenError TreePath} {part : GoString}
    {parts walked : TreePath} (plain : part ≠ str "." ∧ part ≠ str "..") (inner : parts ≠ []) :
    tree.descendWith false follow walked (part :: parts) =
      match tree.at? (walked ++ [part]) with
      | none => .error .notExist
      | some .directory => tree.descendWith false follow (walked ++ [part]) parts
      | some (.symlink target) => (splitPathInRoot target parts).bind (follow walked)
      | some _ => .error .failed := by
  rw [descendWith, if_neg plain.1, if_neg plain.2, if_neg fun last => inner last.1]
  cases tree.at? (walked ++ [part]) with
  | none => rfl
  | some node =>
      cases node with
      | directory => rfl
      | symlink target => rfl
      | regular content modifiedAt => exact if_neg inner
      | other => exact if_neg inner

theorem descendWith_direct {follow : TreePath → TreePath → Except OpenError TreePath}
    {walked parts : TreePath} (plain : ∀ part ∈ parts, part ≠ str "." ∧ part ≠ str "..")
    (directories : ∀ n, 0 < n → n < parts.length →
      tree.at? (walked ++ parts.take n) = some .directory) :
    tree.descendWith false follow walked parts = .ok (walked ++ parts) := by
  induction parts generalizing walked with
  | nil => simp [descendWith]
  | cons part parts ih =>
      have own := plain part List.mem_cons_self
      by_cases last : parts = []
      · rw [last, descendWith, if_neg own.1, if_neg own.2, if_pos ⟨rfl, rfl⟩]
      · have here := directories 1 Nat.one_pos (by
          have := List.length_pos_iff.mpr last
          simpa using this)
        rw [List.take_succ_cons, List.take_zero] at here
        rw [descendWith_inner own last, here]
        simp only
        rw [ih (fun p member => plain p (List.mem_cons_of_mem part member))]
        · simp
        · intro n positive below
          have := directories (n + 1) (Nat.succ_pos n) (by simpa using below)
          simpa using this

/-- Without a symbolic link on the way a name leads to its own path. -/
theorem direct_of_descendWith {follow : TreePath → TreePath → Except OpenError TreePath}
    {walked parts real : TreePath} (plain : ∀ part ∈ parts, part ≠ str "." ∧ part ≠ str "..")
    (unlinked : ∀ n, 0 < n → n < parts.length → ∀ target,
      tree.at? (walked ++ parts.take n) ≠ some (.symlink target))
    (resolved : tree.descendWith false follow walked parts = .ok real) : real = walked ++ parts := by
  induction parts generalizing walked with
  | nil => simpa [descendWith, eq_comm] using resolved
  | cons part parts ih =>
      have own := plain part List.mem_cons_self
      by_cases last : parts = []
      · rw [last, descendWith, if_neg own.1, if_neg own.2, if_pos ⟨rfl, rfl⟩] at resolved
        rw [last, Except.ok.inj resolved]
      · have free := unlinked 1 Nat.one_pos (by
          have := List.length_pos_iff.mpr last
          simpa using this)
        rw [List.take_succ_cons, List.take_zero] at free
        rw [descendWith_inner own last] at resolved
        split at resolved
        · cases resolved
        · rw [ih (fun p member => plain p (List.mem_cons_of_mem part member)) ?_ resolved]
          · simp
          · intro n positive below target
            have := unlinked (n + 1) (Nat.succ_pos n) (by simpa using below) target
            simpa using this
        · rename_i target found
          exact absurd found (free target)
        · cases resolved

theorem descend_eq (followLast : Bool) (links : Nat) :
    ∃ follow, tree.descend followLast links = tree.descendWith followLast follow := by
  cases links with
  | zero => exact ⟨_, rfl⟩
  | succ links => exact ⟨_, rfl⟩

theorem named_plain (named : ∀ name ∈ path, isFileName name = true) :
    ∀ part ∈ path, part ≠ str "." ∧ part ≠ str ".." := by
  intro part member
  obtain ⟨-, dot, dots, -⟩ := isFileName_spec (named part member)
  exact ⟨dot, dots⟩

theorem resolve_mem (member : path ∈ tree.node.keys) : tree.resolve (join slash path) = .ok path := by
  obtain ⟨nonempty, named⟩ := tree.named path member
  obtain ⟨follow, same⟩ := @descend_eq tree false rootMaxSymlinks
  rw [resolve, splitPathInRoot_join nonempty named, same, Except.bind,
    descendWith_direct (named_plain named) fun n _ below => above_directory member below,
    List.nil_append]

theorem nodeAt_ok {node : TreeNode} : tree.nodeAt path = .ok node ↔ tree.at? path = some node := by
  unfold nodeAt
  cases tree.at? path <;> simp

theorem bind_ok {α β : Type} {result : Except OpenError α} {f : α → Except OpenError β} {b : β} :
    result.bind f = .ok b ↔ ∃ a, result = .ok a ∧ f a = .ok b := by
  cases result <;> simp [Except.bind]

theorem lstatNode_mem {node : TreeNode} (entry : tree.node.lookup path = some node) :
    tree.lstatNode (join slash path) = .ok node := by
  have member := mem_keys entry
  exact bind_ok.mpr ⟨path, resolve_mem member,
    nodeAt_ok.mpr ((at?_some (tree.named path member).1).mpr entry)⟩

theorem lstat_mem {content : Bytes} {modifiedAt : Time}
    (entry : tree.node.lookup path = some (.regular content modifiedAt)) :
    tree.lstat (join slash path) = some (.regular content modifiedAt) := by
  rw [lstat, lstatNode_mem entry]
  rfl

theorem lstatNode_regular {name : GoString} {content : Bytes} {modifiedAt : Time}
    (found : tree.lstat name = some (.regular content modifiedAt)) :
    tree.lstatNode name = .ok (.regular content modifiedAt) := by
  unfold lstat at found
  split at found
  · cases found
  · rename_i node there
    rw [there]
    cases node with
    | regular content' modifiedAt' =>
        cases found
        rfl
    | directory => simp [ofNode] at found
    | symlink target => simp [ofNode] at found
    | other => simp [ofNode] at found

/-- A name without symbolic links before its last element is looked up at its own path. -/
theorem lstatNode_direct {node : TreeNode} (nonempty : path ≠ [])
    (named : ∀ name ∈ path, isFileName name = true)
    (unlinked : ∀ n, 0 < n → n < path.length → ∀ target,
      tree.node.lookup (path.take n) ≠ some (.symlink target))
    (found : tree.lstatNode (join slash path) = .ok node) :
    tree.node.lookup path = some node := by
  obtain ⟨real, resolved, there⟩ := bind_ok.mp found
  obtain ⟨follow, same⟩ := @descend_eq tree false rootMaxSymlinks
  rw [resolve, splitPathInRoot_join nonempty named, same, Except.bind] at resolved
  have direct := direct_of_descendWith (named_plain named) (fun n positive below target => ?_)
    resolved
  · rw [direct, List.nil_append] at there
    exact (at?_some nonempty).mp (nodeAt_ok.mp there)
  · rw [List.nil_append, Ne, at?_some]
    · exact unlinked n positive below target
    · simp [nonempty, positive.ne']

end Tree

end Paths

section Listing

variable {P} {tree : Tree} {name : GoString} {image : MigrationImage}

/-- What is asked of the name and the content of a file that may be served. -/
def Deliverable (P : Platform) (name : GoString) (content : Bytes) : Prop :=
  name ≠ [] ∧ validPath name = true ∧ containsAny name (0 :: str "\\") = false ∧ content ≠ [] ∧
    migrationMIMETypes.lookup (P.toLower (ext name)) =
      some (P.detectContentType (content.take 512))

theorem openMigrationImage_some {lstat : GoString → Option MigrationNode} :
    openMigrationImage P lstat name = some image ↔
      lstat name = some (.regular image.content image.modifiedAt) ∧
        Deliverable P name image.content ∧
          image.mimeType = P.detectContentType (image.content.take 512) := by
  unfold openMigrationImage Deliverable
  constructor
  · intro opened
    split at opened
    · cases opened
    rename_i checked
    simp only [not_or, Bool.not_eq_true, Bool.not_eq_false'] at checked
    split at opened
    · rename_i mimeType content modifiedAt extension found
      split at opened
      · rename_i sniffed
        cases opened
        exact ⟨found, ⟨checked.1, checked.2.1, checked.2.2, sniffed.1, by rw [extension, sniffed.2]⟩,
          sniffed.2.symm⟩
      · cases opened
    · cases opened
  · rintro ⟨found, ⟨nonempty, valid, clean, content, extension⟩, sniffed⟩
    rw [if_neg (by simp [nonempty, valid, clean]), extension, found]
    simp only [content, ne_eq, not_false_eq_true, and_self, if_true]
    rw [← sniffed]

def listedFile (P : Platform) (tree : Tree) (path : TreePath) : Option MigrationFile :=
  match tree.at? path with
  | some (.regular content modifiedAt) =>
      (openMigrationImage P tree.lstat (join slash path)).map fun image =>
        ⟨join slash path, image.mimeType, P.toLower (ext (join slash path)), content.length, modifiedAt⟩
  | _ => none

theorem visit_files (list : MigrationList) (path : TreePath) :
    (visit P tree list path).files = list.files ++ (listedFile P tree path).toList := by
  unfold visit listedFile
  cases tree.at? path with
  | none => simp
  | some node =>
      cases node with
      | directory =>
          dsimp only
          split <;> simp [MigrationList.skip]
      | regular content modifiedAt =>
          dsimp only
          cases openMigrationImage P tree.lstat (join slash path) with
          | none => simp [MigrationList.skip]
          | some image => simp
      | symlink target => simp [MigrationList.skip]
      | other => simp [MigrationList.skip]

theorem foldl_visit_files (paths : List TreePath) (list : MigrationList) :
    (paths.foldl (visit P tree) list).files = list.files ++ paths.filterMap (listedFile P tree) := by
  induction paths generalizing list with
  | nil => simp
  | cons path paths ih =>
      rw [List.foldl_cons, ih, visit_files, List.filterMap_cons]
      cases listedFile P tree path <;> simp

theorem listMigrationImages_files :
    (listMigrationImages P tree).files = tree.walked.filterMap (listedFile P tree) := by
  rw [listMigrationImages, foldl_visit_files, List.nil_append]

end Listing

section Removal

variable {P} {tree tree' : Tree} {path : TreePath}

/-- Nothing but directories has gone. -/
def Pruned (tree tree' : Tree) : Prop :=
  ∀ path, tree'.node.lookup path = tree.node.lookup path ∨
    tree.node.lookup path = some .directory ∧ tree'.node.lookup path = none

theorem Pruned.refl (tree : Tree) : Pruned tree tree := fun _ => .inl rfl

theorem Pruned.trans {tree'' : Tree} (first : Pruned tree tree') (second : Pruned tree' tree'') :
    Pruned tree tree'' := by
  intro path
  rcases second path with same | ⟨directory, gone⟩
  · rw [same]
    exact first path
  · rcases first path with same | ⟨-, absent⟩
    · exact .inr ⟨same ▸ directory, gone⟩
    · rw [absent] at directory
      cases directory

theorem lookup_erase (isLeaf : tree.leaf path = true) (other : TreePath) :
    (tree.erase path isLeaf).node.lookup other =
      if other = path then none else tree.node.lookup other :=
  Tables.lookup_erase_ite _ _ _

theorem remove_directory {name : GoString} (there : tree.lstatNode name = .ok .directory)
    (removed : tree.remove name = .ok tree') : Pruned tree tree' := by
  obtain ⟨path, resolved, located⟩ := Tree.bind_ok.mp there
  have found := Tree.nodeAt_ok.mp located
  unfold Tree.remove at removed
  simp only [resolved, found] at removed
  split at removed
  · rename_i isLeaf
    cases removed
    intro other
    rw [lookup_erase]
    by_cases same : other = path
    · rw [if_pos same, same]
      by_cases root : path = []
      · left
        symm
        rw [← Option.not_isSome_iff_eq_none, Finmap.lookup_isSome, ← Finmap.mem_keys]
        exact fun member => (tree.named path member).1 root
      · exact .inr ⟨(Tree.at?_some root).mp found, rfl⟩
    · exact .inl (if_neg same)
  · cases removed

theorem removeEmptyDirectories_pruned (result : MigrationDeleteResult) (above : TreePath) :
    Pruned tree (removeEmptyDirectories tree result above).2 := by
  induction above generalizing tree result with
  | nil => exact .refl tree
  | cons name above ih =>
      rw [removeEmptyDirectories]
      split
      · exact ih result
      · exact .refl tree
      · rename_i there
        split
        · rename_i removed
          exact (remove_directory there removed).trans (ih _)
        · exact ih result
        · exact .refl tree
        · exact .refl tree
      · exact .refl tree

/-- Above an entry there are directories only, so its path is safe to delete. -/
theorem validateComponents_mem {content : Bytes} {modifiedAt : Time} {current rest : TreePath}
    (entry : tree.node.lookup (current ++ rest) = some (.regular content modifiedAt)) :
    validateComponents tree current rest = .ok () := by
  induction rest generalizing current with
  | nil => rfl
  | cons component rest ih =>
      have key := Tree.mem_keys entry
      rw [List.append_cons] at entry
      rw [validateComponents]
      by_cases last : rest = []
      · subst last
        rw [List.append_nil] at entry
        rw [Tree.lstatNode_mem entry]
        rfl
      · have directory := Tree.above_directory key (n := current.length + 1) (by
          have := List.length_pos_iff.mpr last
          simp only [List.length_append, List.length_cons]
          omega)
        rw [List.append_cons, List.take_left' (by simp), Tree.at?_some (by simp)] at directory
        rw [Tree.lstatNode_mem directory]
        exact ih entry

theorem regular_leaf {content : Bytes} {modifiedAt : Time}
    (entry : tree.node.lookup path = some (.regular content modifiedAt)) :
    tree.leaf path = true := by
  refine decide_eq_true ?_
  rintro below member rfl
  have nonempty := (tree.named _ (Tree.mem_keys entry)).1
  rcases tree.rooted below member with top | directory
  · exact nonempty top
  · rw [entry] at directory
    cases directory

/-- The removal of an image takes its entry away, and directories it leaves empty. -/
theorem removeMigrationImage_entry {content : Bytes} {modifiedAt : Time}
    (entry : tree.node.lookup path = some (.regular content modifiedAt))
    (deliverable : Deliverable P (join slash path) content) :
    ∃ result tree', removeMigrationImage P tree (join slash path) = (.ok result, tree') ∧
      tree'.node.lookup path = none ∧ ∀ other, other ≠ path →
        tree'.node.lookup other = tree.node.lookup other ∨
          tree.node.lookup other = some .directory ∧ tree'.node.lookup other = none := by
  have key := Tree.mem_keys entry
  obtain ⟨nonempty, named⟩ := tree.named path key
  have segments : split slash (join slash path) = path :=
    split_join nonempty fun part member => (isFileName_spec (named part member)).2.2.2
  have valid : validateMigrationDeletePath tree (join slash path) = .ok () := by
    obtain ⟨first, second, third, -⟩ := deliverable
    unfold validateMigrationDeletePath
    rw [if_neg (by simp [first, second, third]), segments]
    exact @validateComponents_mem _ _ _ [] _ entry
  have opened : openMigrationImage P tree.lstat (join slash path) =
      some ⟨content, P.detectContentType (content.take 512), modifiedAt⟩ :=
    openMigrationImage_some.mpr ⟨Tree.lstat_mem entry, deliverable, rfl⟩
  have isLeaf := regular_leaf entry
  have removed : tree.remove (join slash path) = .ok (tree.erase path isLeaf) := by
    unfold Tree.remove
    simp only [Tree.resolve_mem key, (Tree.at?_some nonempty).mpr entry, isLeaf, dif_pos]
  have pruned := @removeEmptyDirectories_pruned (tree.erase path isLeaf) ⟨0, false⟩
    path.reverse.tail
  refine ⟨(removeEmptyDirectories (tree.erase path isLeaf) ⟨0, false⟩ path.reverse.tail).1,
    (removeEmptyDirectories (tree.erase path isLeaf) ⟨0, false⟩ path.reverse.tail).2, ?_, ?_, ?_⟩
  · unfold removeMigrationImage
    simp only [valid, opened, removed, segments]
  · rcases pruned path with same | ⟨-, gone⟩
    · rw [same, lookup_erase, if_pos rfl]
    · exact gone
  · intro other differ
    have step := pruned other
    rw [lookup_erase, if_neg differ] at step
    exact step

end Removal

end ImageSilo.Storage
