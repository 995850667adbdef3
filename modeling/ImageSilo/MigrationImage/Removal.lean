import ImageSilo.Guarantees.Migrations
import ImageSilo.Guarantees.Pruning
import Mathlib.Algebra.BigOperators.Group.Finset.Basic

/-! What a deletion takes from the listing, the next scan does not find either. -/
namespace ImageSilo.Migrations

open Go Storage Delivery

variable {P : Platform} {tree tree' : Tree} {path : TreePath} {canonical relativePath : GoString}

section Sizes

def fileSize : Option TreeNode → Int
  | some (.regular content _) => content.length
  | _ => 0

/-- The bytes of the regular files that the walk reaches. -/
def reachedBytes (tree : Tree) : Int :=
  ∑ path ∈ tree.node.keys with Tree.readable path, fileSize (tree.node.lookup path)

theorem visit_storedBytes (nonempty : path ≠ []) (list : MigrationList) :
    (visit P tree list path).storedBytes = list.storedBytes + fileSize (tree.node.lookup path) := by
  unfold visit
  rw [Tree.at?, if_neg nonempty]
  cases tree.node.lookup path with
  | none => simp [fileSize]
  | some node =>
      cases node with
      | directory =>
          dsimp only
          split <;> simp [MigrationList.skip, fileSize]
      | regular content modifiedAt =>
          dsimp only
          cases openMigrationImage P tree.lstat (join slash path) with
          | none => rfl
          | some image => rfl
      | symlink target => simp [MigrationList.skip, fileSize]
      | other => simp [MigrationList.skip, fileSize]

theorem foldl_visit_storedBytes {paths : List TreePath} (nonempty : ∀ path ∈ paths, path ≠ [])
    (list : MigrationList) : (paths.foldl (visit P tree) list).storedBytes =
      list.storedBytes + (paths.map fun path => fileSize (tree.node.lookup path)).sum := by
  induction paths generalizing list with
  | nil => simp
  | cons path paths ih =>
      rw [List.foldl_cons, ih fun other member => nonempty other (List.mem_cons_of_mem _ member),
        visit_storedBytes (nonempty path List.mem_cons_self), List.map_cons, List.sum_cons]
      omega

theorem storedBytes_eq : (listMigrationImages P tree).storedBytes = reachedBytes tree := by
  have nonempty : ∀ path ∈ tree.walked, path ≠ [] := by
    intro path member
    exact (tree.named path ((Finset.mem_sort _).mp (List.mem_filter.mp member).1)).1
  have set : tree.walked.toFinset = tree.node.keys.filter (Tree.readable ·) := by
    ext path
    simp [Tree.walked]
  rw [listMigrationImages, foldl_visit_storedBytes nonempty, Int.zero_add, reachedBytes, ← set]
  exact (List.sum_toFinset _ ((Finset.sort_nodup _ _).filter _)).symm

end Sizes

section Paths

/-- An item under the path of a deletion is the item of its file. -/
theorem ItemOf.file_eq {item : Image} (spec : ItemOf P tree path item) (same : item.path = canonical)
    (decoded : pathUnescape canonical = some (slash :: relativePath)) :
    path = split slash relativePath := by
  have unescaped := spec.decoded
  rw [same, decoded] at unescaped
  obtain rfl : relativePath = join slash path := by simpa using unescaped
  obtain ⟨content, entry, -⟩ := spec.file
  obtain ⟨nonempty, named⟩ := tree.named path (Tree.mem_keys entry)
  exact (split_join nonempty fun part member => (isFileName_spec (named part member)).2.2.2).symm

end Paths

section Taken

variable {file : TreePath} {content : Bytes} {modifiedAt : Time}

/-- One file has gone, and nothing else but directories. -/
structure Taken (tree tree' : Tree) (file : TreePath) : Prop where
  gone : tree'.node.lookup file = none
  others : ∀ other, other ≠ file → tree'.node.lookup other = tree.node.lookup other ∨
    tree.node.lookup other = some .directory ∧ tree'.node.lookup other = none

theorem taken_of_pruned {faults : Faults} {result : MigrationDeleteResult} {kept : Nat}
    (entry : tree.node.lookup file = some (.regular content modifiedAt))
    (pruned : PrunedTo faults tree tree' file result kept) : Taken tree tree' file where
  gone := by
    rw [pruned.cut]
    exact if_pos ⟨pruned.short, List.prefix_rfl⟩
  others := by
    intro other differs
    rw [pruned.cut]
    split
    · rename_i above
      right
      have short : other.length < file.length := by
        rcases above.2.length_le.lt_or_eq with less | same
        · exact less
        · exact absurd (above.2.eq_of_length same) differs
      have nonempty : other ≠ [] := List.length_pos_iff.mp ((Nat.zero_le _).trans_lt above.1)
      have directory := Tree.above_directory (Tree.mem_keys entry) short
      rw [← List.prefix_iff_eq_take.mp above.2] at directory
      exact ⟨(Tree.at?_some nonempty).mp directory, rfl⟩
    · exact .inl rfl

theorem openMigrationImage_congr {lstat lstat' : GoString → Option MigrationNode} {name : GoString}
    (same : lstat name = lstat' name) :
    openMigrationImage P lstat name = openMigrationImage P lstat' name := by
  unfold openMigrationImage
  rw [same]

/-- What a scan makes of an entry depends on this entry alone. -/
theorem item?_congr (same : tree'.node.lookup path = tree.node.lookup path) :
    item? P tree' path = item? P tree path := by
  unfold item? listedFile Tree.at?
  by_cases root : path = []
  · rw [if_pos root, if_pos root]
  · rw [if_neg root, if_neg root, same]
    cases entry : tree.node.lookup path with
    | none => rfl
    | some node =>
        cases node with
        | regular content modifiedAt =>
            have here := Tree.lstat_mem entry
            have there := Tree.lstat_mem (same.trans entry)
            dsimp only
            rw [openMigrationImage_congr (there.trans here.symm)]
        | directory => rfl
        | symlink target => rfl
        | other => rfl

/-- What an item tells of its file besides the path and the time. -/
theorem item?_fields {item : Image} {content : Bytes} {modifiedAt : Time}
    (found : item? P tree path = some item)
    (entry : tree.node.lookup path = some (.regular content modifiedAt)) :
    item.originalName = base (join slash path) ∧
      item.mimeType = P.detectContentType (content.take 512) ∧
      item.extension = P.toLower (ext (join slash path)) ∧ item.storedSize = content.length := by
  obtain ⟨listed, file, shown⟩ := Option.bind_eq_some_iff.mp found
  have nonempty := (tree.named path (Tree.mem_keys entry)).1
  unfold listedFile at file
  rw [(Tree.at?_some nonempty).mpr entry] at file
  obtain ⟨image, opened, rfl⟩ := Option.map_eq_some_iff.mp file
  obtain ⟨there, -, sniffed⟩ := openMigrationImage_some.mp opened
  rw [Tree.lstat_mem entry] at there
  obtain ⟨rfl, -⟩ : content = image.content ∧ modifiedAt = image.modifiedAt := by simpa using there
  unfold publicImage at shown
  split at shown
  · cases shown
  · cases shown
    exact ⟨rfl, sniffed, rfl, rfl⟩

/-- The item of a regular file that can be delivered under an accepted path. -/
def Listable (P : Platform) (tree : Tree) (item : Image) : Prop :=
  ∃ entry content, tree.node.lookup entry = some (.regular content item.modifiedAt) ∧
    Deliverable P (join slash entry) content ∧ normalizeAliasPath P item.path = .ok item.path ∧
    pathUnescape item.path = some (slash :: join slash entry) ∧
    item.relativePath = join slash entry ∧ item.originalName = base (join slash entry) ∧
    item.mimeType = P.detectContentType (content.take 512) ∧
    item.extension = P.toLower (ext (join slash entry)) ∧ item.storedSize = content.length

/-- The items of a scan are those of the files that can be delivered. -/
theorem mem_scan_iff {item : Image} :
    item ∈ (scanSnapshot P tree 0).items ↔ Listable P tree item := by
  rw [mem_scan]
  constructor
  · rintro ⟨path, -, found⟩
    have spec := itemOf_item? found
    obtain ⟨content, entry, deliverable⟩ := spec.file
    obtain ⟨name, type, extension, size⟩ := item?_fields found entry
    exact ⟨path, content, entry, deliverable, spec.accepted, spec.decoded, spec.relative, name, type,
      extension, size⟩
  · rintro ⟨path, content, entry, deliverable, accepted, decoded, relative, name, type, extension, size⟩
    obtain ⟨other, found, same⟩ := item?_of entry deliverable accepted decoded
    obtain ⟨nonempty, named⟩ := tree.named path (Tree.mem_keys entry)
    have walked : path ∈ tree.walked := List.mem_filter.mpr
      ⟨(Finset.mem_sort _).mpr (Tree.mem_keys entry), readable_valid nonempty named deliverable.2.1⟩
    refine ⟨path, walked, found.trans (congrArg some ?_)⟩
    obtain ⟨name', type', extension', size'⟩ := item?_fields found entry
    have spec := itemOf_item? found
    obtain ⟨content', entry', -⟩ := spec.file
    have time : other.modifiedAt = item.modifiedAt := by
      rw [entry] at entry'
      exact (TreeNode.regular.inj (Option.some.inj entry')).2.symm
    have relative' := spec.relative
    cases other
    cases item
    simp_all

theorem filter_path {items : List Image} {item : Image} (distinct : (items.map Image.path).Nodup)
    (member : item ∈ items) : items.filter (fun other => other.path == item.path) = [item] := by
  have unique : ∀ other ∈ items, other.path = item.path → other = item :=
    fun other there same => List.inj_on_of_nodup_map distinct there member same
  refine List.perm_singleton.mp ((List.perm_ext_iff_of_nodup
    ((List.Nodup.of_map _ distinct).filter _) (List.nodup_singleton item)).mpr fun other => ?_)
  rw [List.mem_filter, List.mem_singleton, beq_iff_eq]
  constructor
  · exact fun h => unique other h.1 h.2
  · rintro rfl
    exact ⟨member, rfl⟩

theorem item?_missing (missing : ∀ content modifiedAt,
    tree.node.lookup path ≠ some (.regular content modifiedAt)) : item? P tree path = none := by
  cases found : item? P tree path with
  | none => rfl
  | some item =>
      obtain ⟨content, entry, -⟩ := (itemOf_item? found).file
      exact absurd entry (missing content item.modifiedAt)

theorem taken_item (taken : Taken tree tree' file) (path : TreePath) :
    item? P tree' path = if path = file then none else item? P tree path := by
  split
  · rename_i same
    refine item?_missing ?_
    rw [same, taken.gone]
    exact fun _ _ there => by cases there
  · rename_i differs
    rcases taken.others path differs with same | ⟨directory, gone⟩
    · exact item?_congr same
    · have before : item? P tree path = none := by
        refine item?_missing ?_
        rw [directory]
        exact fun _ _ there => by cases there
      rw [before]
      refine item?_missing ?_
      rw [gone]
      exact fun _ _ there => by cases there

/-- Whatever is there after the deletion was there before it. -/
theorem Taken.kept (taken : Taken tree tree' file) {node : TreeNode}
    (there : tree'.node.lookup path = some node) : tree.node.lookup path = some node := by
  by_cases same : path = file
  · rw [same, taken.gone] at there
    cases there
  · rcases taken.others path same with kept | ⟨-, gone⟩
    · exact kept.symm.trans there
    · rw [gone] at there
      cases there

/-- A scan after the deletion finds the items with other paths. -/
theorem Taken.mem_scan (taken : Taken tree tree' file) {item : Image} :
    item ∈ (scanSnapshot P tree' 0).items ↔
      ∃ path ∈ tree.walked, path ≠ file ∧ item? P tree path = some item := by
  rw [Migrations.mem_scan]
  constructor
  · rintro ⟨path, walked, found⟩
    rw [taken_item taken] at found
    split at found
    · cases found
    · rename_i differs
      obtain ⟨content, entry, -⟩ := (itemOf_item? found).file
      refine ⟨path, ?_, differs, found⟩
      obtain ⟨-, readable⟩ := List.mem_filter.mp walked
      exact List.mem_filter.mpr ⟨(Finset.mem_sort _).mpr (Tree.mem_keys entry), readable⟩
  · rintro ⟨path, walked, differs, found⟩
    obtain ⟨content, entry, -⟩ := (itemOf_item? found).file
    obtain ⟨-, readable⟩ := List.mem_filter.mp walked
    have there : tree'.node.lookup path = tree.node.lookup path := by
      rcases taken.others path differs with same | ⟨directory, -⟩
      · exact same
      · rw [entry] at directory
        cases directory
    refine ⟨path, List.mem_filter.mpr ⟨(Finset.mem_sort _).mpr ?_, readable⟩, ?_⟩
    · exact Tree.mem_keys (there.trans entry)
    · rw [item?_congr there]
      exact found

/-- Two orderings of the same items are one. -/
theorem sorted_unique {items items' : List Image}
    (sorted : items.Pairwise fun left right => less left right)
    (sorted' : items'.Pairwise fun left right => less left right)
    (same : ∀ item, item ∈ items ↔ item ∈ items') : items = items' := by
  have asymmetric : ∀ a b : Image, less a b = true → less b a = true → False := by
    intro a b first second
    rcases less_iff.mp first with newer | ⟨equal, lower⟩
    · rcases less_iff.mp second with newer' | ⟨equal', -⟩
      · exact lt_asymm newer newer'
      · exact newer.ne equal'.symm.symm
    · rcases less_iff.mp second with newer' | ⟨-, lower'⟩
      · exact newer'.ne equal
      · exact List.lt_asymm lower lower'
  have irreflexive : ∀ {items : List Image}, items.Pairwise (fun left right => less left right) →
      items.Nodup := by
    intro items sorted
    refine List.nodup_iff_pairwise_ne.mpr (sorted.imp ?_)
    rintro a b before rfl
    exact asymmetric a a before before
  refine List.Perm.eq_of_pairwise ?_ sorted sorted' ?_
  · exact fun a b _ _ first second => (asymmetric a b first second).elim
  · exact (List.perm_ext_iff_of_nodup (irreflexive sorted) (irreflexive sorted')).mpr same

theorem Taken.items (taken : Taken tree tree' (split slash relativePath))
    (accepted : normalizeAliasPath P canonical = .ok canonical)
    (decoded : pathUnescape canonical = some (slash :: relativePath)) :
    (scanSnapshot P tree' 0).items =
      (scanSnapshot P tree 0).items.filter fun item => item.path != canonical := by
  refine sorted_unique scan_sorted (scan_sorted.filter _) fun item => ?_
  rw [taken.mem_scan, List.mem_filter, Migrations.mem_scan, bne_iff_ne]
  constructor
  · rintro ⟨path, walked, differs, found⟩
    refine ⟨⟨path, walked, found⟩, ?_⟩
    intro same
    exact differs ((itemOf_item? found).file_eq same decoded)
  · rintro ⟨⟨path, walked, found⟩, differs⟩
    refine ⟨path, walked, ?_, found⟩
    rintro rfl
    have spec := itemOf_item? found
    have same := spec.decoded
    rw [join_split] at same
    exact differs ((canonical_unique spec.accepted accepted).mpr (same.trans decoded.symm))

theorem Taken.reachedBytes (taken : Taken tree tree' file)
    (entry : tree.node.lookup file = some (.regular content modifiedAt))
    (readable : Tree.readable file = true) :
    reachedBytes tree' = Migrations.reachedBytes tree - content.length := by
  have absent : ∀ path ∈ tree.node.keys.filter (Tree.readable ·),
      path ∉ tree'.node.keys.filter (Tree.readable ·) → fileSize (tree'.node.lookup path) = 0 := by
    intro path member missing
    have gone : tree'.node.lookup path = none := by
      by_contra there
      obtain ⟨node, there⟩ := Option.ne_none_iff_exists'.mp there
      exact missing (Finset.mem_filter.mpr ⟨Tree.mem_keys there, (Finset.mem_filter.mp member).2⟩)
    rw [gone]
    rfl
  have kept : tree'.node.keys.filter (Tree.readable ·) ⊆ tree.node.keys.filter (Tree.readable ·) := by
    intro path member
    obtain ⟨key, readable⟩ := Finset.mem_filter.mp member
    obtain ⟨node, there⟩ := Option.isSome_iff_exists.mp
      (Finmap.lookup_isSome.mpr (Finmap.mem_keys.mp key))
    exact Finset.mem_filter.mpr ⟨Tree.mem_keys (taken.kept there), readable⟩
  have member : file ∈ tree.node.keys.filter (Tree.readable ·) :=
    Finset.mem_filter.mpr ⟨Tree.mem_keys entry, readable⟩
  have others : ∀ path ∈ (tree.node.keys.filter (Tree.readable ·)).erase file,
      fileSize (tree'.node.lookup path) = fileSize (tree.node.lookup path) := by
    intro path member
    rcases taken.others path (Finset.ne_of_mem_erase member) with same | ⟨directory, gone⟩
    · rw [same]
    · rw [directory, gone]
      rfl
  have before := Finset.add_sum_erase _ (fun path => fileSize (tree.node.lookup path)) member
  have after := Finset.add_sum_erase _ (fun path => fileSize (tree'.node.lookup path)) member
  unfold Migrations.reachedBytes
  rw [Finset.sum_subset kept absent, ← after, ← before, Finset.sum_congr rfl others, taken.gone, entry]
  simp [fileSize]

end Taken

section Removal

variable {faults : Faults} {content : Bytes} {modifiedAt : Time}

/-- Directories above a file are all there, so a check of its path can only meet a fault. -/
theorem validateComponents_there {current rest : TreePath}
    (entry : tree.node.lookup (current ++ rest) = some (.regular content modifiedAt)) :
    faults.validateComponents tree current rest = .ok () ∨
      faults.validateComponents tree current rest = .error .failed := by
  induction rest generalizing current with
  | nil => exact .inl rfl
  | cons component rest ih =>
      have key := Tree.mem_keys entry
      rw [List.append_cons] at entry
      rw [Faults.validateComponents]
      unfold Faults.lstat
      by_cases fails : faults.inspectComponent (join slash (current ++ [component])) = true
      · rw [if_pos fails]
        exact .inr rfl
      rw [if_neg fails]
      by_cases last : rest = []
      · subst last
        rw [List.append_nil] at entry
        rw [Tree.lstatNode_mem entry]
        exact .inl rfl
      · have directory := Tree.above_directory key (n := current.length + 1) (by
          have := List.length_pos_iff.mpr last
          simp only [List.length_append, List.length_cons]
          omega)
        rw [List.append_cons, List.take_left' (by simp), Tree.at?_some (by simp)] at directory
        rw [Tree.lstatNode_mem directory]
        exact ih entry

/-- A file that is there is not reported missing. -/
theorem removal_found {fuel : Nat}
    (entry : tree.node.lookup (split slash relativePath) = some (.regular content modifiedAt)) :
    faults.removeMigrationImage fuel P tree relativePath ≠ some (.error .notExist, tree') := by
  intro removed
  unfold Faults.removeMigrationImage at removed
  split at removed
  · cases removed
  have checked : faults.validateMigrationDeletePath tree relativePath = .ok () ∨
      faults.validateMigrationDeletePath tree relativePath = .error .failed := by
    unfold Faults.validateMigrationDeletePath
    split
    · exact .inr rfl
    · exact @validateComponents_there _ _ _ _ [] _ entry
  rcases checked with accepted | failed
  · rw [accepted] at removed
    dsimp only at removed
    split at removed
    · have there := remove_leaf entry (regular_leaf entry)
      rw [join_split] at there
      unfold Faults.removes at removed
      by_cases fails : faults.removeFile = true
      · rw [if_pos fails] at removed
        cases removed
      · rw [if_neg fails, there] at removed
        dsimp only at removed
        obtain ⟨⟨result, cleaned⟩, -, other⟩ := Option.map_eq_some_iff.mp removed
        cases other
    · cases removed
  · rw [failed] at removed
    cases removed

end Removal

end ImageSilo.Migrations
