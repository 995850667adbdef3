import ImageSilo.HttpApi.Delivery
import ImageSilo.MigrationImage.Listing
import ImageSilo.Storage.Pruning
import ImageSilo.System.Boot

/-! The page lists every file that a request can get, except those reached through a symbolic link to a
directory. -/
namespace ImageSilo.Migrations

open Go Storage Delivery Concurrent

variable {P : Platform} {tree : Tree} {σ : State}

/-- The answer to a request that nothing else runs beside and that meets no fault. -/
def answer (P : Platform) (σ : State) (r : ImageRequest) : Option (Reply × State) :=
  (machine P).alone 0 (fun _ => .normal) (serve P r) σ

/-- A request whose target is the path as it stands. -/
def getPath (path : GoString) : ImageRequest := ⟨none, path, [], none, []⟩

def Served (P : Platform) (σ : State) (path : GoString) : Prop :=
  ∃ image, answer P σ (getPath path) = some (.migration image, σ)

theorem answer_unaliased {path name : GoString} (accepted : normalizeAliasPath P path = .ok path)
    (decoded : pathUnescape path = some (slash :: name)) (missed : σ.index.getAlias path = none) :
    answer P σ (getPath path) =
      some ((openMigrationImage P σ.files.migrations name).elim .notFound .migration, σ) := by
  have clear : rejectURLToken (getPath path) = false := rfl
  have spelled : (getPath path).escapedPath = path := rfl
  have handler : serve P (getPath path) = serveAliasUnlocked P (getPath path) := rfl
  rw [answer, handler, serveAliasUnlocked, clear, spelled, accepted]
  simp only [Bool.false_eq_true, if_false]
  change (machine P).alone 0 (fun _ => .normal)
    (.act (.getAlias path) fun target => Program.bind (.done target) _) σ = _
  change ((State.perform P σ 0 (.getAlias path) .normal).bind _) = _
  rw [show State.perform P σ 0 (.getAlias path) .normal = some (none, σ) by
    change some (σ.index.getAlias path, σ) = _
    rw [missed]]
  change (machine P).alone 0 (fun _ => .normal) (serveMigration path) σ = _
  rw [serveMigration, decoded]
  change (some (openMigrationImage P σ.files.migrations (trimPrefix (slash :: name) (str "/")), σ)).bind
    _ = _
  rw [trimPrefix_slash]
  cases openMigrationImage P σ.files.migrations name <;> rfl

theorem served_iff {path name : GoString} (mounted : σ.files.migrations = tree.lstat)
    (accepted : normalizeAliasPath P path = .ok path)
    (decoded : pathUnescape path = some (slash :: name)) (missed : σ.index.getAlias path = none) :
    Served P σ path ↔ ∃ content modifiedAt,
      tree.lstat name = some (.regular content modifiedAt) ∧ Deliverable P name content := by
  unfold Served
  rw [answer_unaliased accepted decoded missed, mounted]
  constructor
  · rintro ⟨image, answered⟩
    cases opened : openMigrationImage P tree.lstat name with
    | none => simp [opened] at answered
    | some image =>
        obtain ⟨found, deliverable, -⟩ := openMigrationImage_some.mp opened
        exact ⟨_, _, found, deliverable⟩
  · rintro ⟨content, modifiedAt, found, deliverable⟩
    have opened : openMigrationImage P tree.lstat name =
        some ⟨content, P.detectContentType (content.take 512), modifiedAt⟩ :=
      openMigrationImage_some.mpr ⟨found, deliverable, rfl⟩
    exact ⟨_, by rw [opened]; rfl⟩

/-- The elements of a name that can be served are names of files. -/
theorem served_names {path name : GoString} (accepted : normalizeAliasPath P path = .ok path)
    (decoded : pathUnescape path = some (slash :: name)) (valid : validPath name = true) :
    ∀ part ∈ split slash name, isFileName part = true := by
  obtain ⟨-, d, same, checked, -⟩ := normalizeAliasPath_ok accepted
  obtain rfl : d = slash :: name := Option.some.inj (same.symm.trans decoded)
  simp only [acceptsDecoded, Bool.and_eq_true, List.all_eq_true, split_slash] at checked
  have plain := checked.1.2
  intro part member
  have dots := plain part (List.mem_cons_of_mem _ member)
  simp only [validPath, Bool.and_eq_true, Bool.or_eq_true, beq_iff_eq, List.all_eq_true] at valid
  have nonempty : part ≠ [] := by
    rcases valid.2 with rfl | elements
    · have single : split slash (str ".") = [str "."] := rfl
      rw [single, List.mem_singleton] at member
      rw [member]
      decide
    · have := elements part member
      simp only [bne_iff_ne] at this
      exact this.1.1
  simp only [bne_iff_ne] at dots
  simp [isFileName, nonempty, dots.1, dots.2, split_plain_members member]

/-- The walk reads every directory above a valid name. -/
theorem readable_valid {entry : TreePath} (nonempty : entry ≠ [])
    (named : ∀ part ∈ entry, isFileName part = true) (valid : validPath (join slash entry) = true) :
    Tree.readable entry = true := by
  refine List.all_eq_true.mpr ?_
  intro n below
  rw [List.mem_range] at below
  rcases Nat.eq_zero_or_pos n with rfl | positive
  · rfl
  have front : entry.take n ≠ [] := by simp [nonempty, positive.ne']
  have back : entry.drop n ≠ [] := by
    rw [Ne, List.drop_eq_nil_iff]
    omega
  have utf8 : utf8Valid (join slash (entry.take n)) = true := by
    simp only [validPath, Bool.and_eq_true] at valid
    have whole := valid.1
    rw [← List.take_append_drop n entry, join_append front back] at whole
    exact utf8Valid_before_slash whole
  have elements : ∀ part ∈ entry.take n, isFileName part = true :=
    fun part member => named part (List.mem_of_mem_take member)
  have segments : split slash (join slash (entry.take n)) = entry.take n :=
    split_join front fun part member => (isFileName_spec (elements part member)).2.2.2
  have good : validPath (join slash (entry.take n)) = true := by
    rw [validPath, utf8, segments, Bool.true_and, Bool.or_eq_true, List.all_eq_true]
    right
    intro part member
    obtain ⟨first, second, third, -⟩ := isFileName_spec (elements part member)
    simp [first, second, third]
  rw [good, Bool.or_true]

theorem listed_iff {path : GoString} :
    path ∈ (scanSnapshot P tree 0).items.map Image.path ↔
      normalizeAliasPath P path = .ok path ∧ ∃ entry content modifiedAt,
        tree.node.lookup entry = some (.regular content modifiedAt) ∧
          Deliverable P (join slash entry) content ∧
            pathUnescape path = some (slash :: join slash entry) := by
  constructor
  · intro member
    obtain ⟨item, listed, rfl⟩ := List.mem_map.mp member
    obtain ⟨entry, -, found⟩ := mem_scan.mp listed
    have spec := itemOf_item? found
    obtain ⟨content, there, deliverable⟩ := spec.file
    exact ⟨spec.accepted, entry, content, _, there, deliverable, spec.decoded⟩
  · rintro ⟨accepted, entry, content, modifiedAt, there, deliverable, decoded⟩
    obtain ⟨item, found, rfl⟩ := item?_of there deliverable accepted decoded
    have key := Tree.mem_keys there
    obtain ⟨nonempty, named⟩ := tree.named entry key
    have walked : entry ∈ tree.walked := by
      refine List.mem_filter.mpr ⟨(Finset.mem_sort _).mpr key, ?_⟩
      exact readable_valid nonempty named deliverable.2.1
    exact List.mem_map.mpr ⟨item, mem_scan.mpr ⟨entry, walked, found⟩, rfl⟩

/-- An accepted path that leads to an image through a symbolic link to a directory. -/
def Detour (P : Platform) (tree : Tree) (path : GoString) : Prop :=
  normalizeAliasPath P path = .ok path ∧ ∃ name content modifiedAt,
    pathUnescape path = some (slash :: name) ∧
      (∃ n target, 0 < n ∧ n < (split slash name).length ∧
        tree.node.lookup ((split slash name).take n) = some (.symlink target)) ∧
      tree.lstat name = some (.regular content modifiedAt) ∧ Deliverable P name content

/-- A path is listed when it is served without a detour. -/
theorem listed_or_detour {path : GoString} (mounted : σ.files.migrations = tree.lstat)
    (accepted : normalizeAliasPath P path = .ok path) (missed : σ.index.getAlias path = none)
    (served : Served P σ path) :
    path ∈ (scanSnapshot P tree 0).items.map Image.path ∨ Detour P tree path := by
  obtain ⟨rawAccepted, decoded, unescaped, -⟩ := normalizeAliasPath_ok accepted
  obtain ⟨name, rfl⟩ := decoded_slash rawAccepted unescaped
  obtain ⟨content, modifiedAt, found, deliverable⟩ :=
    (served_iff mounted accepted unescaped missed).mp served
  by_cases linked : ∃ n target, 0 < n ∧ n < (split slash name).length ∧
      tree.node.lookup ((split slash name).take n) = some (.symlink target)
  · exact .inr ⟨accepted, name, content, modifiedAt, unescaped, linked, found, deliverable⟩
  · left
    have named := served_names accepted unescaped deliverable.2.1
    have joined := join_split name
    have there := Tree.lstatNode_regular found
    rw [← joined] at there
    have direct := Tree.lstatNode_direct (split_ne_nil name) named (fun n positive below target link =>
      linked ⟨n, target, positive, below, link⟩) there
    refine listed_iff.mpr ⟨accepted, split slash name, content, modifiedAt, direct, ?_, ?_⟩
    · rw [joined]
      exact deliverable
    · rw [joined]
      exact unescaped

theorem served_listed {path : GoString} (mounted : σ.files.migrations = tree.lstat)
    (missed : σ.index.getAlias path = none)
    (listed : path ∈ (scanSnapshot P tree 0).items.map Image.path) :
    normalizeAliasPath P path = .ok path ∧ Served P σ path := by
  obtain ⟨accepted, entry, content, modifiedAt, there, deliverable, decoded⟩ := listed_iff.mp listed
  exact ⟨accepted, (served_iff mounted accepted decoded missed).mpr
    ⟨content, modifiedAt, Tree.lstat_mem there, deliverable⟩⟩

theorem detour_unlisted {path : GoString} (detour : Detour P tree path) :
    path ∉ (scanSnapshot P tree 0).items.map Image.path := by
  intro listed
  obtain ⟨-, name, -, -, unescaped, ⟨n, target, positive, below, link⟩, -⟩ := detour
  obtain ⟨-, entry, content, modifiedAt, there, -, decoded⟩ := listed_iff.mp listed
  have key := Tree.mem_keys there
  obtain ⟨nonempty, named⟩ := tree.named entry key
  obtain rfl : name = join slash entry := by simpa using unescaped.symm.trans decoded
  rw [split_join nonempty fun part member => (isFileName_spec (named part member)).2.2.2] at below link
  have directory := Tree.above_directory key below
  rw [Tree.at?_some (by simp [nonempty, positive.ne']), link] at directory
  cases directory

/-- Without alias rows an index that `Build` computed resolves no path. -/
theorem getAlias_none (indexed : σ.Indexed P) (unaliased : σ.database.aliases = [])
    (path : GoString) : σ.index.getAlias path = none := by
  obtain ⟨L, built, same⟩ := indexed
  rw [same, Index.getAlias]
  cases found : L.snapshot.aliases.lookup path with
  | none => rfl
  | some id =>
      obtain ⟨a, known, -⟩ := ((built_describes built).mapping path id).mp found
      rw [unaliased] at known
      cases known

/-- The items show exactly the canonical paths that are answered with a migration file. -/
def ListsServed (P : Platform) (σ : State) (items : List Image) : Prop :=
  ∀ path, path ∈ items.map Image.path ↔ normalizeAliasPath P path = .ok path ∧ Served P σ path

/-- All pages after a refresh show what is served, exactly when no image is reached by a detour. -/
theorem listing_complete_iff {s : Service} {now : Time} {limit : Int} {times : Nat → Time}
    {fuel : Nat} (lower : P.toLower [] = []) (dated : Dated tree)
    (mounted : σ.files.migrations = tree.lstat) (indexed : σ.Indexed P)
    (unaliased : σ.database.aliases = [])
    (enough : (scanSnapshot P tree now).items.length < fuel) :
    (∃ items, readPages P tree limit times fuel .empty (refresh P tree now s) = some items ∧
      ListsServed P σ items) ↔ ∀ path, ¬ Detour P tree path := by
  have missed := getAlias_none indexed unaliased
  have read := @readPages_all P tree _ lower dated limit times _
    (@refresh_current P tree s now) enough
  constructor
  · rintro ⟨items, pages, complete⟩ path detour
    obtain rfl := Option.some.inj (read.symm.trans pages)
    obtain ⟨accepted, name, content, modifiedAt, unescaped, -, found, deliverable⟩ := id detour
    refine detour_unlisted detour ((complete path).mpr ⟨accepted, ?_⟩)
    exact (served_iff mounted accepted unescaped (missed path)).mpr
      ⟨content, modifiedAt, found, deliverable⟩
  · intro direct
    refine ⟨_, read, fun path => ⟨served_listed mounted (missed path), ?_⟩⟩
    rintro ⟨accepted, served⟩
    exact (listed_or_detour mounted accepted (missed path) served).resolve_right (direct path)

/-- The answer to a request for the path of an item. -/
theorem answer_item {entry : TreePath} {item : Image} {content : Bytes}
    (h : ItemOf P tree entry item)
    (there : tree.node.lookup entry = some (.regular content item.modifiedAt))
    (mounted : σ.files.migrations = tree.lstat) (missed : σ.index.getAlias item.path = none) :
    answer P σ (getPath item.path) =
      some (.migration ⟨content, P.detectContentType (content.take 512), item.modifiedAt⟩, σ) := by
  obtain ⟨content', there', deliverable⟩ := h.file
  obtain rfl : content' = content := by
    rw [there] at there'
    cases there'
    rfl
  have opened : openMigrationImage P tree.lstat (join slash entry) =
      some ⟨content', P.detectContentType (content'.take 512), item.modifiedAt⟩ :=
    openMigrationImage_some.mpr ⟨Tree.lstat_mem there, deliverable, rfl⟩
  rw [answer_unaliased h.accepted h.decoded missed, mounted, opened]
  rfl

/-- What the deletion of an item does to the tree. -/
theorem delete_item {s : Service} {entry : TreePath} {item : Image} (h : ItemOf P tree entry item)
    (enabled : s.mutationsEnabled = true) :
    ∃ result tree' s', delete P tree item.path s = (.ok result, tree', s') ∧
      tree'.node.lookup entry = none ∧ ∀ other, other ≠ entry →
        tree'.node.lookup other = tree.node.lookup other ∨
          tree.node.lookup other = some .directory ∧ tree'.node.lookup other = none := by
  obtain ⟨content, there, deliverable⟩ := h.file
  obtain ⟨result, tree', removed, gone, others⟩ := removeMigrationImage_entry there deliverable
  refine ⟨⟨item.path, result.removedDirectories, result.cleanupPending⟩, tree',
    removeCachedPath s item.path, ?_, gone, others⟩
  unfold delete
  simp only [enabled, h.normalizes, h.relative, removed]
  simp

/-- An item, the file that is served under its path and the file that its deletion removes are the
same, and no other file goes. -/
theorem item_is_one_file {s : Service} {now : Time} (enabled : s.mutationsEnabled = true) :
    ((scanSnapshot P tree now).items.map Image.path).Nodup ∧
      ∀ item ∈ (scanSnapshot P tree now).items,
        normalizeImagePath P item.path = some (item.path, item.relativePath) ∧
        (∀ σ : State, σ.files.migrations = tree.lstat → σ.index.getAlias item.path = none →
          ∃ image, answer P σ (getPath item.path) = some (.migration image, σ) ∧
            tree.node.lookup (split slash item.relativePath) =
              some (.regular image.content image.modifiedAt)) ∧
        ∃ result tree' s', delete P tree item.path s = (.ok result, tree', s') ∧
          tree'.node.lookup (split slash item.relativePath) = none ∧
          (∀ other, other ≠ split slash item.relativePath →
            tree'.node.lookup other = tree.node.lookup other ∨
              tree.node.lookup other = some .directory ∧ tree'.node.lookup other = none) ∧
          ∀ kept ∈ (scanSnapshot P tree now).items, kept.path ≠ item.path →
            ∀ σ σ' : State, σ.files.migrations = tree.lstat → σ'.files.migrations = tree'.lstat →
              σ.index.getAlias kept.path = none → σ'.index.getAlias kept.path = none →
              ∃ image, answer P σ (getPath kept.path) = some (.migration image, σ) ∧
                answer P σ' (getPath kept.path) = some (.migration image, σ') := by
  refine ⟨scan_distinct, ?_⟩
  intro item listed
  obtain ⟨entry, -, found⟩ := mem_scan.mp listed
  have h := itemOf_item? found
  obtain ⟨content, there, -⟩ := h.file
  obtain ⟨nonempty, named⟩ := tree.named entry (Tree.mem_keys there)
  have segments : split slash item.relativePath = entry := by
    rw [h.relative]
    exact split_join nonempty fun part member => (isFileName_spec (named part member)).2.2.2
  rw [segments]
  refine ⟨h.normalizes, ?_, ?_⟩
  · exact fun σ mounted missed => ⟨_, answer_item h there mounted missed, there⟩
  · obtain ⟨result, tree', s', deleted, gone, others⟩ := delete_item h enabled
    refine ⟨result, tree', s', deleted, gone, others, ?_⟩
    intro kept listed' differ σ σ' mounted mounted' missed missed'
    obtain ⟨entry', -, found'⟩ := mem_scan.mp listed'
    have k := itemOf_item? found'
    obtain ⟨content', there', deliverable'⟩ := k.file
    -- the other entry is no directory, so it is still there
    have distinct : entry' ≠ entry := by
      rintro rfl
      rw [found] at found'
      exact differ (by rw [Option.some.inj found'])
    have still : tree'.node.lookup entry' = some (.regular content' kept.modifiedAt) := by
      rcases others entry' distinct with same | ⟨directory, -⟩
      · rw [same, there']
      · rw [there'] at directory
        cases directory
    have k' : ItemOf P tree' entry' kept :=
      ⟨k.relative, ⟨content', still, deliverable'⟩, k.accepted, k.decoded⟩
    exact ⟨_, answer_item k there' mounted missed, answer_item k' still mounted' missed'⟩

section Sample

/-- A directory with one image, and a symbolic link to the directory. -/
def linkedTree : Tree where
  node :=
    [(⟨[str "real"], .directory⟩ : (_ : TreePath) × TreeNode),
      ⟨[str "real", str "x.png"], .regular Processor.pngSignature 0⟩,
      ⟨[str "link"], .symlink (str "real")⟩].toFinmap
  named := by decide
  rooted := by decide

/-- A platform that knows one format. -/
def sniffingPlatform : Platform :=
  { samplePlatform with
    detectContentType := fun content =>
      if Processor.pngSignature.isPrefixOf content then str "image/png" else [] }

def mountedState (tree : Tree) : State :=
  let σ := sampleState Processor.pngSignature (str "image/png") .isPublic (by decide)
  { σ with files := { σ.files with migrations := tree.lstat } }

theorem mounted_indexed (tree : Tree) : (mountedState tree).Indexed sniffingPlatform :=
  (@sample_begins Processor.pngSignature (str "image/png") .isPublic (by decide)).indexed

/-- Two images in a directory, and a symbolic link to one of them. -/
def albumTree : Tree where
  node :=
    [(⟨[str "album"], .directory⟩ : (_ : TreePath) × TreeNode),
      ⟨[str "album", str "x.png"], .regular Processor.pngSignature 0⟩,
      ⟨[str "album", str "y.png"], .regular Processor.pngSignature 0⟩,
      ⟨[str "cover.png"], .symlink (str "album/x.png")⟩].toFinmap
  named := by decide
  rooted := by decide

theorem album_keys {path : TreePath} {node : TreeNode} (there : albumTree.node.lookup path = some node) :
    path = [str "album"] ∨ path = [str "album", str "x.png"] ∨ path = [str "album", str "y.png"] ∨
      path = [str "cover.png"] := by
  have keys : albumTree.node.keys = {[str "album"], [str "album", str "x.png"],
      [str "album", str "y.png"], [str "cover.png"]} := rfl
  have key := Tree.mem_keys there
  simpa only [keys, Finset.mem_insert, Finset.mem_singleton] using key

theorem album_dated : Dated albumTree := by
  intro path content modifiedAt there
  rcases album_keys there with rfl | rfl | rfl | rfl
  · cases there
  · cases there
    decide
  · cases there
    decide
  · cases there

/-- The link leads to a file, so no name goes on below it. -/
theorem cover_stops {part : GoString} {rest : TreePath}
    (named : ∀ name ∈ str "cover.png" :: part :: rest, isFileName name = true) :
    albumTree.lstatNode (join slash (str "cover.png" :: part :: rest)) = .error .failed := by
  have target : Tree.splitPathInRoot (str "album/x.png") (part :: rest) =
      .ok (str "album" :: str "x.png" :: part :: rest) := by
    have elements : Tree.components (str "album/x.png") = [str "album", str "x.png"] := by decide +kernel
    rw [Tree.splitPathInRoot, if_neg (by decide +kernel), if_neg (by simp), elements]
    rfl
  have link : albumTree.at? [str "cover.png"] = some (.symlink (str "album/x.png")) := by
    decide +kernel
  have directory : albumTree.at? [str "album"] = some .directory := by decide +kernel
  have file : albumTree.at? [str "album", str "x.png"] = some (.regular Processor.pngSignature 0) := by
    decide +kernel
  have inside : albumTree.descend false 7 [] (str "album" :: str "x.png" :: part :: rest) =
      .error .failed := by
    rw [Tree.descend, Tree.descendWith_inner (by decide) (by simp), List.nil_append, directory]
    dsimp only
    rw [Tree.descendWith_inner (by decide) (by simp), List.singleton_append, file]
  rw [Tree.lstatNode, Tree.resolve, Tree.splitPathInRoot_join (by simp) named, Except.bind,
    show Tree.rootMaxSymlinks = 7 + 1 from rfl, Tree.descend, Tree.descendWith_inner (by decide) (by simp),
    List.nil_append, link]
  dsimp only
  rw [target, Except.bind, inside]
  rfl

theorem album_direct (path : GoString) : ¬ Detour sniffingPlatform albumTree path := by
  rintro ⟨-, name, content, modifiedAt, -, ⟨n, target, positive, short, link⟩, found, deliverable⟩
  have other : name ≠ str "." := by
    rintro rfl
    exact absurd short (by
      change ¬ n < 1
      omega)
  have named := valid_names deliverable.2.1 other
  have there := Tree.lstatNode_regular found
  rw [← join_split name] at there
  have front : (split slash name).take n = [str "cover.png"] := by
    rcases album_keys link with eq | eq | eq | eq
    · rw [eq] at link
      cases link
    · rw [eq] at link
      cases link
    · rw [eq] at link
      cases link
    · exact eq
  have more : (split slash name).drop n ≠ [] := by
    rw [Ne, List.drop_eq_nil_iff]
    omega
  obtain ⟨part, rest, back⟩ := List.exists_cons_of_ne_nil more
  have whole : split slash name = str "cover.png" :: part :: rest := by
    rw [← List.take_append_drop n (split slash name), front, back]
    rfl
  rw [whole] at there named
  rw [cover_stops named] at there
  cases there

theorem album_walked {path : TreePath} (key : path ∈ albumTree.node.keys)
    (readable : Tree.readable path = true) : path ∈ albumTree.walked :=
  List.mem_filter.mpr ⟨(Finset.mem_sort _).mpr key, readable⟩

/-- The pages of a tree in which no link leads to a directory are complete. -/
theorem album_listed : ∃ items,
    readPages sniffingPlatform albumTree 1 (fun _ => 0) 5 .empty
      (refresh sniffingPlatform albumTree 0 ⟨true, none⟩) = some items ∧
      ListsServed sniffingPlatform (mountedState albumTree) items := by
  have short : (scanSnapshot sniffingPlatform albumTree 0).items.length < 5 := by
    calc (scanSnapshot sniffingPlatform albumTree 0).items.length
        = (albumTree.walked.filterMap (item? sniffingPlatform albumTree)).length := scan_perm.length_eq
      _ ≤ albumTree.walked.length := List.length_filterMap_le _ _
      _ ≤ (Tree.sorted albumTree).length := List.length_filter_le _ _
      _ = albumTree.node.keys.card := Finset.length_sort _
      _ < 5 := by decide +kernel
  exact (listing_complete_iff rfl album_dated rfl (mounted_indexed albumTree) rfl short).mpr album_direct

theorem png_deliverable {name : String} (valid : validPath (str name) = true)
    (clean : containsAny (str name) (0 :: str "\\") = false) (extension : ext (str name) = str ".png")
    (nonempty : str name ≠ []) :
    Deliverable sniffingPlatform (str name) Processor.pngSignature := by
  refine ⟨nonempty, valid, clean, by decide, ?_⟩
  have lowered : sniffingPlatform.toLower (ext (str name)) = ext (str name) := rfl
  rw [lowered, extension]
  decide

/-- One of two images in a directory, deleted. -/
theorem album_deleted : ∃ item ∈ (scanSnapshot sniffingPlatform albumTree 0).items,
    ∃ kept ∈ (scanSnapshot sniffingPlatform albumTree 0).items, kept.path ≠ item.path ∧
      ∃ result tree' s', delete sniffingPlatform albumTree item.path ⟨true, none⟩ =
          (.ok result, tree', s') ∧
        tree'.node.lookup (split slash item.relativePath) = none ∧
        ∃ image, answer sniffingPlatform (mountedState tree') (getPath kept.path) =
          some (.migration image, mountedState tree') := by
  obtain ⟨item, found, path⟩ := @item?_of sniffingPlatform albumTree [str "album", str "x.png"]
    Processor.pngSignature 0 (str "/album/x.png") rfl
    (@png_deliverable "album/x.png" (by decide) (by decide) (by decide) (by decide))
    (by decide +kernel) (by decide +kernel)
  obtain ⟨kept, found', path'⟩ := @item?_of sniffingPlatform albumTree [str "album", str "y.png"]
    Processor.pngSignature 0 (str "/album/y.png") rfl
    (@png_deliverable "album/y.png" (by decide) (by decide) (by decide) (by decide))
    (by decide +kernel) (by decide +kernel)
  have listed : item ∈ (scanSnapshot sniffingPlatform albumTree 0).items :=
    mem_scan.mpr ⟨_, album_walked (by decide) (by decide), found⟩
  have listed' : kept ∈ (scanSnapshot sniffingPlatform albumTree 0).items :=
    mem_scan.mpr ⟨_, album_walked (by decide) (by decide), found'⟩
  have differ : kept.path ≠ item.path := by
    rw [path, path']
    decide
  have missed : ∀ tree path, (mountedState tree).index.getAlias path = none :=
    fun tree path => getAlias_none (mounted_indexed tree) rfl path
  obtain ⟨-, -, result, tree', s', deleted, gone, -, others⟩ :=
    (item_is_one_file (s := ⟨true, none⟩) rfl).2 item listed
  obtain ⟨image, -, served⟩ := others kept listed' differ (mountedState albumTree) (mountedState tree')
    rfl rfl (missed _ _) (missed _ _)
  exact ⟨item, listed, kept, listed', differ, result, tree', s', deleted, gone, image, served⟩

/-- The image below the linked directory is served and not listed. -/
theorem linked_image_is_not_listed : ¬ ∀ (P : Platform) (tree : Tree) (σ : State) (s : Service)
    (now : Time) (limit : Int) (times : Nat → Time) (fuel : Nat), P.toLower [] = [] → Dated tree →
    σ.files.migrations = tree.lstat → σ.Indexed P → σ.database.aliases = [] →
    (scanSnapshot P tree now).items.length < fuel →
    ∃ items, readPages P tree limit times fuel .empty (refresh P tree now s) = some items ∧
      ListsServed P σ items := by
  intro claim
  have dated : Dated linkedTree := by
    intro path content modifiedAt there
    have keys : linkedTree.node.keys =
        {[str "real"], [str "real", str "x.png"], [str "link"]} := rfl
    have key := Tree.mem_keys there
    rw [keys, Finset.mem_insert, Finset.mem_insert, Finset.mem_singleton] at key
    rcases key with rfl | rfl | rfl
    · cases there
    · cases there
      decide
    · cases there
  have led : linkedTree.lstatNode (str "link/x.png") = .ok (.regular Processor.pngSignature 0) := by
    decide +kernel
  have detour : Detour sniffingPlatform linkedTree (str "/link/x.png") := by
    refine ⟨by decide +kernel, str "link/x.png", Processor.pngSignature, 0, by decide +kernel,
      ⟨1, str "real", Nat.one_pos, by decide, rfl⟩, by rw [Tree.lstat, led]; rfl, ?_⟩
    exact png_deliverable (by decide) (by decide) (by decide) (by decide)
  have missed := getAlias_none (mounted_indexed linkedTree) rfl (str "/link/x.png")
  obtain ⟨items, pages, complete⟩ := claim sniffingPlatform linkedTree (mountedState linkedTree)
    ⟨true, none⟩ 0 24 (fun _ => 0) _ rfl dated rfl (mounted_indexed linkedTree) rfl (Nat.lt_succ_self _)
  have read := @readPages_all sniffingPlatform linkedTree _ rfl dated 24 (fun _ => 0) _
    (@refresh_current sniffingPlatform linkedTree ⟨true, none⟩ 0) (Nat.lt_succ_self _)
  obtain rfl := Option.some.inj (read.symm.trans pages)
  obtain ⟨accepted, name, content, modifiedAt, unescaped, -, found, deliverable⟩ := id detour
  refine detour_unlisted detour ((complete _).mpr ⟨accepted, ?_⟩)
  exact (served_iff rfl accepted unescaped missed).mpr ⟨content, modifiedAt, found, deliverable⟩

end Sample

end ImageSilo.Migrations
