import ImageSilo.Storage.Pruning

/-! The directories above a deleted image go from the bottom up, as long as the one below was all that
they held. -/
namespace ImageSilo.Storage

open Go

variable {P : Platform} {tree current : Tree} {path : TreePath} {faults : Faults}

section Checks

/-- Checked components are directories, up to the last one. -/
theorem validateComponents_ok {checked rest : TreePath}
    (named : ∀ part ∈ checked ++ rest, isFileName part = true)
    (above : ∀ n, 0 < n → n ≤ checked.length → tree.node.lookup (checked.take n) = some .directory)
    (accepted : faults.validateComponents tree checked rest = .ok ()) :
    ∀ n, 0 < n → n < (checked ++ rest).length →
      tree.node.lookup ((checked ++ rest).take n) = some .directory := by
  induction rest generalizing checked with
  | nil =>
      intro n positive short
      rw [List.append_nil] at short ⊢
      exact above n positive short.le
  | cons component rest ih =>
      have single : (checked ++ [component]) ++ rest = checked ++ component :: rest := by simp
      have ends : ∀ n, 0 < n → n < (checked ++ [component]).length →
          tree.node.lookup ((checked ++ [component]).take n) = some .directory := by
        intro n positive short
        have inside : n ≤ checked.length := by simpa [Nat.lt_succ_iff] using short
        rw [List.take_append_of_le_length inside]
        exact above n positive inside
      have direct : ∀ node, tree.lstatNode (join slash (checked ++ [component])) = .ok node →
          tree.node.lookup (checked ++ [component]) = some node := by
        intro node found
        refine Tree.lstatNode_direct (by simp) ?_ ?_ found
        · intro part member
          exact named part (by rw [← single]; exact List.mem_append_left _ member)
        · intro n positive short target link
          rw [ends n positive short] at link
          cases link
      rw [Faults.validateComponents] at accepted
      unfold Faults.lstat at accepted
      split at accepted
      · cases accepted
      · cases accepted
      · cases accepted
      · rename_i found
        split at found
        · cases found
        rw [← single] at named ⊢
        refine ih named ?_ accepted
        intro n positive within
        rcases within.lt_or_eq with short | whole
        · exact ends n positive short
        · rw [whole, List.take_length]
          exact direct _ found
      · split at accepted
        · rename_i last
          subst last
          exact ends
        · cases accepted

/-- What has been checked and opened is a file with directories above it. -/
theorem opened_entry {relativePath : GoString} {image : MigrationImage}
    (accepted : faults.validateMigrationDeletePath tree relativePath = .ok ())
    (opened : openMigrationImage P tree.lstat relativePath = some image) :
    tree.node.lookup (split slash relativePath) = some (.regular image.content image.modifiedAt) := by
  obtain ⟨found, ⟨nonempty, valid, clean, content, extension⟩, -⟩ := openMigrationImage_some.mp opened
  have other : relativePath ≠ str "." := by
    rintro rfl
    have root : tree.lstat (str ".") = some .other := rfl
    rw [root] at found
    cases found
  have named := valid_names valid other
  unfold Faults.validateMigrationDeletePath at accepted
  rw [if_neg (by simp [nonempty, valid, clean])] at accepted
  have none : ∀ n, 0 < n → n ≤ ([] : TreePath).length →
      tree.node.lookup (([] : TreePath).take n) = some .directory :=
    fun n positive none => absurd (positive.trans_le none) (lt_irrefl _)
  have directories := validateComponents_ok named none accepted
  have there := Tree.lstatNode_regular found
  rw [← join_split relativePath] at there
  refine Tree.lstatNode_direct (split_ne_nil _) named ?_ there
  intro n positive short target link
  have directory := directories n positive short
  rw [List.nil_append] at directory
  rw [directory] at link
  cases link

/-- The checks of the way to a file go through exactly if none of them fails by itself. -/
theorem validateComponents_entry {content : Bytes} {modifiedAt : Time} {checked rest : TreePath}
    (entry : tree.node.lookup (checked ++ rest) = some (.regular content modifiedAt)) :
    faults.validateComponents tree checked rest = .ok () ↔
      ∀ n, checked.length < n → n ≤ (checked ++ rest).length →
        faults.inspectComponent (join slash ((checked ++ rest).take n)) = false := by
  induction rest generalizing checked with
  | nil =>
      constructor
      · intro _ n longer short
        rw [List.append_nil] at short
        omega
      · intro _
        rfl
  | cons component rest ih =>
      have single : checked ++ component :: rest = (checked ++ [component]) ++ rest := by simp
      have length : (checked ++ [component]).length = checked.length + 1 := by simp
      have front : (checked ++ component :: rest).take (checked.length + 1) = checked ++ [component] := by
        rw [single, List.take_left' length]
      have bound : checked.length + 1 ≤ (checked ++ component :: rest).length := by simp
      have first : (∀ n, checked.length < n → n ≤ (checked ++ component :: rest).length →
            faults.inspectComponent (join slash ((checked ++ component :: rest).take n)) = false) ↔
          faults.inspectComponent (join slash (checked ++ [component])) = false ∧
            ∀ n, checked.length + 1 < n → n ≤ (checked ++ component :: rest).length →
              faults.inspectComponent (join slash ((checked ++ component :: rest).take n)) = false := by
        constructor
        · intro spared
          refine ⟨?_, fun n longer short => spared n (Nat.lt_of_succ_lt longer) short⟩
          rw [← front]
          exact spared _ (Nat.lt_succ_self _) bound
        · rintro ⟨here, later⟩ n longer short
          rcases (Nat.succ_le_of_lt longer).lt_or_eq with deeper | same
          · exact later n deeper short
          · rw [← same, Nat.succ_eq_add_one, front]
            exact here
      rw [first, Faults.validateComponents]
      unfold Faults.lstat
      by_cases fails : faults.inspectComponent (join slash (checked ++ [component])) = true
      · rw [if_pos fails, fails]
        simp
      rw [if_neg fails]
      have key := Tree.mem_keys entry
      by_cases last : rest = []
      · subst last
        rw [Tree.lstatNode_mem entry]
        simp only [fails, if_true, true_iff, true_and]
        intro n longer short
        rw [single, List.append_nil, length] at short
        omega
      · have directory := Tree.above_directory key (n := checked.length + 1) (by
          have := List.length_pos_iff.mpr last
          simp only [List.length_append, List.length_cons]
          omega)
        rw [front, Tree.at?_some (by simp)] at directory
        rw [Tree.lstatNode_mem directory]
        simp only [fails, true_and]
        rw [single] at entry ⊢
        rw [ih entry, length]

/-- No call on the way to the removal of the file fails by itself. -/
structure Faults.Spares (faults : Faults) (path : TreePath) : Prop where
  openRoot : faults.openRoot = false
  inspectComponent : ∀ n, 0 < n → n ≤ path.length →
    faults.inspectComponent (join slash (path.take n)) = false
  readFile : faults.readFile = false
  removeFile : faults.removeFile = false

section Entries

variable {relativePath : GoString} {content : Bytes} {modifiedAt : Time}

theorem validateMigrationDeletePath_entry
    (entry : tree.node.lookup (split slash relativePath) = some (.regular content modifiedAt))
    (deliverable : Deliverable P relativePath content) :
    faults.validateMigrationDeletePath tree relativePath = .ok () ↔
      ∀ n, 0 < n → n ≤ (split slash relativePath).length →
        faults.inspectComponent (join slash ((split slash relativePath).take n)) = false := by
  obtain ⟨nonempty, valid, clean, -⟩ := deliverable
  unfold Faults.validateMigrationDeletePath
  rw [if_neg (by simp [nonempty, valid, clean])]
  exact @validateComponents_entry _ _ _ _ [] _ entry

theorem openMigrationImage_entry
    (entry : tree.node.lookup (split slash relativePath) = some (.regular content modifiedAt))
    (deliverable : Deliverable P relativePath content) :
    openMigrationImage P tree.lstat relativePath =
      some ⟨content, P.detectContentType (content.take 512), modifiedAt⟩ := by
  refine openMigrationImage_some.mpr ⟨?_, deliverable, rfl⟩
  have found := Tree.lstat_mem entry
  rwa [join_split] at found

end Entries

end Checks

section Loop

variable {content : Bytes} {modifiedAt : Time} {kept : Nat}

/-- The beginnings of the path that are longer than `kept` are gone, and nothing else. -/
def Cut (tree current : Tree) (path : TreePath) (kept : Nat) : Prop :=
  ∀ other, current.node.lookup other =
    if kept < other.length ∧ other <+: path then none else tree.node.lookup other

/-- Below the directory there was only what leads to the file. -/
def Emptied (tree : Tree) (path : TreePath) (n : Nat) : Prop :=
  ∀ below ∈ tree.node.keys, path.take n <+: below → below <+: path

theorem Emptied.below {n m : Nat} (h : Emptied tree path n) (deeper : n ≤ m) : Emptied tree path m := by
  intro below member inside
  refine h below member (List.IsPrefix.trans ?_ inside)
  exact List.take_prefix_take_left deeper

theorem Cut.keys (h : Cut tree current path kept) {other : TreePath} :
    other ∈ current.node.keys ↔ other ∈ tree.node.keys ∧ ¬ (kept < other.length ∧ other <+: path) := by
  rw [Finmap.mem_keys, Finmap.mem_keys, ← Finmap.lookup_isSome, ← Finmap.lookup_isSome, h]
  split
  · rename_i gone
    simp [gone]
  · rename_i there
    simp [there]

/-- With the deeper directories gone a directory is empty exactly if it held nothing else. -/
theorem Cut.leaf_iff (h : Cut tree current path kept)
    (entry : tree.node.lookup path = some (.regular content modifiedAt)) (short : kept < path.length)
    (deeper : kept + 1 < path.length → Emptied tree path (kept + 1)) :
    current.leaf (path.take kept) = true ↔ Emptied tree path kept := by
  unfold Tree.leaf
  rw [decide_eq_true_eq]
  constructor
  · intro empty below member inside
    by_contra aside
    have longer : kept < below.length := by
      have bound := inside.length_le
      rw [List.length_take_of_le short.le] at bound
      rcases bound.lt_or_eq with less | same
      · exact less
      · have whole : path.take kept = below :=
          inside.eq_of_length (by rw [List.length_take_of_le short.le, same])
        exact absurd (whole ▸ List.take_prefix _ _) aside
    -- the entry of the directory that leads to it
    have front : below.take kept = path.take kept := by
      obtain ⟨more, rfl⟩ := inside
      exact List.take_left' (List.length_take_of_le short.le)
    by_cases same : below.take (kept + 1) = path.take (kept + 1)
    · rcases (Nat.succ_le_of_lt short).lt_or_eq with above | last
      · exact aside (deeper above below member (same ▸ List.take_prefix _ _))
      · -- a file has nothing below it
        rw [show path.take (kept + 1) = path by rw [List.take_of_length_le last.ge]] at same
        rcases (Nat.succ_le_of_lt longer).lt_or_eq with under | equal
        · have directory := Tree.above_directory member under
          rw [same, Tree.at?_some (tree.named path (Tree.mem_keys entry)).1, entry] at directory
          cases directory
        · rw [List.take_of_length_le equal.ge] at same
          exact aside (same ▸ List.prefix_rfl)
    · have child : below.take (kept + 1) ∈ current.node.keys := by
        rw [h.keys]
        constructor
        · rcases (Nat.succ_le_of_lt longer).lt_or_eq with under | equal
          · have directory := Tree.above_directory member under
            rw [Tree.at?_some] at directory
            · exact Tree.mem_keys directory
            · intro none
              have long := congrArg List.length none
              rw [List.length_take_of_le longer] at long
              cases long
          · rw [List.take_of_length_le equal.ge]
            exact member
        · rintro ⟨-, beginning⟩
          obtain ⟨more, rest⟩ := beginning
          have taken := congrArg (List.take (kept + 1)) rest
          rw [List.take_left' (List.length_take_of_le longer)] at taken
          exact same taken
      refine empty _ child ?_
      rw [List.dropLast_eq_take, List.length_take_of_le longer, List.take_take, ← front]
      simp
  · intro emptied child member parent
    obtain ⟨there, remaining⟩ := h.keys.mp member
    have nonempty := (tree.named child there).1
    have beginning : child <+: path := by
      refine emptied child there ?_
      rw [← parent]
      exact List.dropLast_prefix child
    refine remaining ⟨?_, beginning⟩
    have length := congrArg List.length parent
    rw [List.length_dropLast, List.length_take_of_le short.le] at length
    have positive := List.length_pos_iff.mpr nonempty
    omega

theorem remove_leaf {node : TreeNode} (there : tree.node.lookup path = some node)
    (isLeaf : tree.leaf path = true) : tree.remove (join slash path) = .ok (tree.erase path isLeaf) := by
  have key := Tree.mem_keys there
  unfold Tree.remove
  simp only [Tree.resolve_mem key, (Tree.at?_some (tree.named path key).1).mpr there, isLeaf, dif_pos]

theorem remove_filled {node : TreeNode} (there : tree.node.lookup path = some node)
    (filled : ¬ tree.leaf path = true) : tree.remove (join slash path) = .error .notEmpty := by
  have key := Tree.mem_keys there
  unfold Tree.remove
  simp only [Tree.resolve_mem key, (Tree.at?_some (tree.named path key).1).mpr there, filled]
  rfl

theorem Cut.erase (h : Cut tree current path (kept + 1)) (short : kept + 1 < path.length)
    (isLeaf : current.leaf (path.take (kept + 1)) = true) :
    Cut tree (current.erase (path.take (kept + 1)) isLeaf) path kept := by
  intro other
  rw [lookup_erase]
  by_cases same : other = path.take (kept + 1)
  · rw [if_pos same, if_pos]
    rw [same, List.length_take_of_le short.le]
    exact ⟨Nat.lt_succ_self _, List.take_prefix _ _⟩
  · rw [if_neg same, h]
    refine if_congr ⟨fun gone => ⟨(Nat.lt_succ_self _).trans gone.1, gone.2⟩, fun gone => ⟨?_, gone.2⟩⟩
      rfl rfl
    rcases (Nat.succ_le_of_lt gone.1).lt_or_eq with longer | equal
    · exact longer
    · obtain ⟨more, rfl⟩ := gone.2
      exact absurd (List.take_left' equal.symm).symm same

/-- The deletion has left the directories down to length `kept`. -/
structure PrunedTo (faults : Faults) (tree current : Tree) (path : TreePath)
    (result : MigrationDeleteResult) (kept : Nat) : Prop where
  cut : Cut tree current path kept
  short : kept < path.length
  count : result.removedDirectories + kept + 1 = path.length
  emptied : ∀ n, kept < n → n < path.length → Emptied tree path n
  stops : result.cleanupPending = false → ∀ n, 0 < n → n ≤ kept → ¬ Emptied tree path n
  resists : result.cleanupPending = true → 0 < kept ∧
    (faults.inspectDirectory (join slash (path.take kept)) = true ∨
      faults.removeDirectory (join slash (path.take kept)) = true)

/-- One directory and those above it, by induction on the length of its path. -/
theorem removeEmptyDirectories_prunedTo (faults : Faults) {result : MigrationDeleteResult}
    (entry : tree.node.lookup path = some (.regular content modifiedAt))
    (short : kept < path.length) (cut : Cut tree current path kept)
    (count : result.removedDirectories + kept + 1 = path.length)
    (settled : result.cleanupPending = false)
    (emptied : ∀ n, kept < n → n < path.length → Emptied tree path n) :
    ∃ result' current' kept', PrunedTo faults tree current' path result' kept' ∧
      ∀ fuel, kept < fuel → faults.removeEmptyDirectories fuel current result
        (directoryName path kept) = some (result', current') := by
  induction kept generalizing current result with
  | zero =>
      refine ⟨result, current, 0, ⟨cut, short, count, emptied, ?_, ?_⟩, fun fuel enough => ?_⟩
      · exact fun _ n positive none => absurd none (not_le.mpr positive)
      · intro pending
        rw [settled] at pending
        cases pending
      · obtain ⟨fuel, rfl⟩ := Nat.exists_eq_succ_of_ne_zero enough.ne'
        rw [Faults.removeEmptyDirectories]
        exact if_pos rfl
  | succ kept ih =>
      have key := Tree.mem_keys entry
      obtain ⟨nonempty, named⟩ := tree.named path key
      have filled : path.take (kept + 1) ≠ [] := by simp [nonempty]
      have names : ∀ part ∈ path.take (kept + 1), isFileName part = true :=
        fun part member => named part (List.mem_of_mem_take member)
      have name : directoryName path (kept + 1) = join slash (path.take (kept + 1)) := if_neg (by simp)
      have directory : tree.node.lookup (path.take (kept + 1)) = some .directory :=
        (Tree.at?_some filled).mp (Tree.above_directory key short)
      have there : current.node.lookup (path.take (kept + 1)) = some .directory := by
        rw [cut, if_neg, directory]
        rw [List.length_take_of_le short.le]
        exact fun gone => lt_irrefl _ gone.1
      have stopped : (faults.inspectDirectory (join slash (path.take (kept + 1))) = true ∨
            faults.removeDirectory (join slash (path.take (kept + 1))) = true) →
          PrunedTo faults tree current path { result with cleanupPending := true } (kept + 1) := by
        intro resists
        refine ⟨cut, short, count, emptied, fun settled' => ?_, fun _ => ⟨Nat.succ_pos _, resists⟩⟩
        cases settled'
      have turn : ∀ {outcome}, (∀ fuel, kept < fuel → faults.removeEmptyDirectories (fuel + 1) current
            result (join slash (path.take (kept + 1))) = outcome) →
          ∀ fuel, kept + 1 < fuel → faults.removeEmptyDirectories fuel current result
            (directoryName path (kept + 1)) = outcome := by
        intro outcome run fuel enough
        obtain ⟨fuel, rfl⟩ := Nat.exists_eq_succ_of_ne_zero (Nat.ne_zero_of_lt enough)
        rw [name]
        exact run fuel (Nat.lt_of_succ_lt_succ enough)
      simp only [Faults.removeEmptyDirectories, if_neg (join_ne_dot filled names), Faults.lstat,
        Tree.lstatNode_mem there, Faults.removes] at turn
      by_cases uninspected : faults.inspectDirectory (join slash (path.take (kept + 1))) = true
      · refine ⟨_, _, _, stopped (.inl uninspected), turn fun fuel _ => ?_⟩
        rw [if_pos uninspected]
      by_cases resists : faults.removeDirectory (join slash (path.take (kept + 1))) = true
      · refine ⟨_, _, _, stopped (.inr resists), turn fun fuel _ => ?_⟩
        rw [if_neg uninspected, if_pos resists]
      have isLeaf := cut.leaf_iff entry short fun deeper => emptied _ (Nat.lt_succ_self _) deeper
      by_cases empty : current.leaf (path.take (kept + 1)) = true
      · have above := (Nat.lt_succ_self kept).trans short
        let next : MigrationDeleteResult :=
          { result with removedDirectories := result.removedDirectories + 1 }
        have count' : next.removedDirectories + kept + 1 = path.length := by
          change result.removedDirectories + 1 + kept + 1 = path.length
          omega
        have emptied' : ∀ n, kept < n → n < path.length → Emptied tree path n := by
          intro n longer within
          rcases (Nat.succ_le_of_lt longer).lt_or_eq with deeper | same
          · exact emptied n deeper within
          · exact same ▸ isLeaf.mp empty
        obtain ⟨result', current', kept', pruned, run⟩ :=
          ih above (cut.erase short empty) count' settled emptied'
        refine ⟨result', current', kept', pruned, turn fun fuel enough => ?_⟩
        rw [if_neg uninspected, if_neg resists, remove_leaf there empty, dir_take named above]
        exact run fuel enough
      · refine ⟨result, current, kept + 1, ⟨cut, short, count, emptied, ?_, ?_⟩, turn fun fuel _ => ?_⟩
        · intro _ n positive above all
          exact empty (isLeaf.mpr (all.below above))
        · intro pending
          rw [settled] at pending
          cases pending
        · rw [if_neg uninspected, if_neg resists, remove_filled there empty]

end Loop

section Deletion

variable {result : MigrationDeleteResult} {kept : Nat}

/-- Without a directory that resists, exactly what the file alone has filled is gone. -/
theorem PrunedTo.exact (h : PrunedTo faults tree current path result kept)
    (settled : result.cleanupPending = false) (other : TreePath) :
    (other = path ∨ (∃ n, 0 < n ∧ n < path.length ∧ other = path.take n ∧ Emptied tree path n) →
      current.node.lookup other = none) ∧
    (¬ (other = path ∨ ∃ n, 0 < n ∧ n < path.length ∧ other = path.take n ∧ Emptied tree path n) →
      current.node.lookup other = tree.node.lookup other) := by
  rw [h.cut]
  constructor
  · rintro (rfl | ⟨n, positive, short, rfl, emptied⟩)
    · exact if_pos ⟨h.short, List.prefix_rfl⟩
    · rw [if_pos]
      rw [List.length_take_of_le short.le]
      refine ⟨?_, List.take_prefix _ _⟩
      by_contra above
      exact h.stops settled n positive (not_lt.mp above) emptied
  · intro stays
    rw [if_neg]
    rintro ⟨longer, beginning⟩
    have whole : other = path.take other.length := List.prefix_iff_eq_take.mp beginning
    rcases beginning.length_le.lt_or_eq with short | same
    · exact stays (.inr ⟨_, (Nat.zero_le _).trans_lt longer, short, whole, h.emptied _ longer short⟩)
    · exact stays (.inl (beginning.eq_of_length same))

/-- The file has gone. -/
theorem cut_file (isLeaf : tree.leaf path = true) (long : path.length = kept + 1) : Cut tree (tree.erase path isLeaf) path kept := by
  intro other
  rw [lookup_erase]
  by_cases same : other = path
  · rw [if_pos same, if_pos]
    rw [same, long]
    exact ⟨Nat.lt_succ_self _, List.prefix_rfl⟩
  · rw [if_neg same, if_neg]
    rintro ⟨longer, beginning⟩
    have bound := beginning.length_le
    exact same (beginning.eq_of_length (by omega))

/-- There is a file with this name that may be served, and nothing fails on the way to it. -/
def Removable (P : Platform) (faults : Faults) (tree : Tree) (relativePath : GoString) : Prop :=
  faults.Spares (split slash relativePath) ∧ ∃ content modifiedAt,
    tree.node.lookup (split slash relativePath) = some (.regular content modifiedAt) ∧
      Deliverable P relativePath content

/-- The two ways in which a deletion ends. -/
theorem removeMigrationImage_cases (P : Platform) (faults : Faults) (tree : Tree)
    (relativePath : GoString) :
    (¬ Removable P faults tree relativePath ∧
      ∃ e, ∀ fuel, faults.removeMigrationImage fuel P tree relativePath = some (.error e, tree)) ∨
    Removable P faults tree relativePath ∧ ∃ result current kept,
      PrunedTo faults tree current (split slash relativePath) result kept ∧
      ∀ fuel, (split slash relativePath).length ≤ fuel →
        faults.removeMigrationImage fuel P tree relativePath = some (.ok result, current) := by
  unfold Faults.removeMigrationImage
  by_cases unopened : faults.openRoot = true
  · refine .inl ⟨fun removable => ?_, .failed, fun fuel => if_pos unopened⟩
    rw [removable.1.openRoot] at unopened
    cases unopened
  simp only [unopened, Bool.false_eq_true, if_false]
  cases accepted : faults.validateMigrationDeletePath tree relativePath with
  | error e =>
      refine .inl ⟨?_, e, fun fuel => rfl⟩
      rintro ⟨spares, content, modifiedAt, entry, deliverable⟩
      rw [(validateMigrationDeletePath_entry entry deliverable).mpr spares.inspectComponent] at accepted
      cases accepted
  | ok u =>
      cases unread : faults.readFile with
      | true =>
          refine .inl ⟨fun removable => ?_, .failed, fun fuel => rfl⟩
          rw [removable.1.readFile] at unread
          cases unread
      | false =>
          cases opened : openMigrationImage P tree.lstat relativePath with
          | none =>
              refine .inl ⟨?_, .failed, fun fuel => rfl⟩
              rintro ⟨-, content, modifiedAt, entry, deliverable⟩
              rw [openMigrationImage_entry entry deliverable] at opened
              cases opened
          | some image =>
              have entry := opened_entry accepted opened
              have isLeaf := regular_leaf entry
              unfold Faults.removes
              by_cases unremoved : faults.removeFile = true
              · refine .inl ⟨fun removable => ?_, .failed, fun fuel => by rw [if_pos unremoved]⟩
                rw [removable.1.removeFile] at unremoved
                cases unremoved
              have deliverable := (openMigrationImage_some.mp opened).2.1
              have inspected := (validateMigrationDeletePath_entry entry deliverable).mp accepted
              have removed := remove_leaf entry isLeaf
              rw [join_split] at removed
              obtain ⟨nonempty, named⟩ := tree.named _ (Tree.mem_keys entry)
              obtain ⟨kept, long⟩ := Nat.exists_eq_succ_of_ne_zero (List.length_pos_iff.mpr nonempty).ne'
              have above : dir relativePath = directoryName (split slash relativePath) kept := by
                rw [← dir_take named (by omega), List.take_of_length_le long.le, join_split]
              have begun : (⟨0, false⟩ : MigrationDeleteResult).removedDirectories + kept + 1 =
                  (split slash relativePath).length := by
                rw [long, Nat.zero_add]
              obtain ⟨result, current, kept', pruned, run⟩ :=
                removeEmptyDirectories_prunedTo faults entry (by omega) (cut_file isLeaf long) begun rfl
                  fun n deeper within => absurd within (by omega)
              refine .inr ⟨⟨⟨by simpa using unopened, inspected, unread, by simpa using unremoved⟩,
                _, _, entry, deliverable⟩, result, current, kept', pruned, fun fuel enough => ?_⟩
              dsimp only
              rw [if_neg unremoved, removed]
              dsimp only
              rw [above, run fuel (by omega)]
              rfl

/-- A deletion ends, and it succeeds exactly for a file that may be served where nothing fails on the way.
If it fails nothing has changed. If it succeeds the file is gone with the directories that it alone has
filled, one count for each; where a directory resists, only those below it are gone. -/
theorem deletion_prunes (P : Platform) (faults : Faults) (tree : Tree) (relativePath : GoString) :
    ∃ outcome current,
      (∀ fuel, (split slash relativePath).length ≤ fuel →
        faults.removeMigrationImage fuel P tree relativePath = some (outcome, current)) ∧
      ((∃ result, outcome = .ok result) ↔ Removable P faults tree relativePath) ∧
      (∀ e, outcome = .error e → current = tree) ∧
      ∀ result, outcome = .ok result →
        (∃ content modifiedAt,
          tree.node.lookup (split slash relativePath) = some (.regular content modifiedAt) ∧
            Deliverable P relativePath content) ∧
        (∃ kept, PrunedTo faults tree current (split slash relativePath) result kept) ∧
        (result.cleanupPending = false → ∀ other,
          (other = split slash relativePath ∨ (∃ n, 0 < n ∧ n < (split slash relativePath).length ∧
              other = (split slash relativePath).take n ∧ Emptied tree (split slash relativePath) n) →
            current.node.lookup other = none) ∧
          (¬ (other = split slash relativePath ∨ ∃ n, 0 < n ∧ n < (split slash relativePath).length ∧
              other = (split slash relativePath).take n ∧ Emptied tree (split slash relativePath) n) →
            current.node.lookup other = tree.node.lookup other)) := by
  rcases removeMigrationImage_cases P faults tree relativePath with ⟨unremovable, e, run⟩ |
    ⟨removable, result, current, kept, pruned, run⟩
  · refine ⟨.error e, tree, fun fuel _ => run fuel, ⟨?_, fun removable => absurd removable unremovable⟩,
      fun _ _ => rfl, nofun⟩
    rintro ⟨result, ⟨⟩⟩
  · refine ⟨.ok result, current, run, ⟨fun _ => removable, fun _ => ⟨result, rfl⟩⟩, nofun, ?_⟩
    rintro _ ⟨⟩
    exact ⟨removable.2, ⟨kept, pruned⟩, fun settled => pruned.exact settled⟩

end Deletion

end ImageSilo.Storage
