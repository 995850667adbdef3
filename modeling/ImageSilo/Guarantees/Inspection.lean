import ImageSilo.Maintenance.Service
import ImageSilo.Storage.Migrations
import ImageSilo.System.Boot

/-! `Build` and the inspection agree on a damaged images directory exactly when each judges every row
alike. -/
namespace ImageSilo

open Go Tables Storage Delivery

variable {P : Platform} {db : Database} {tree : Tree}

def openRegularInRoot (tree : Tree) (name : GoString) : Except OpenError Bytes :=
  match tree.stat name with
  | .error e => .error e
  | .ok (.regular content _) => .ok content
  | .ok _ => .error .failed

/-- `StoredSize` in such a directory. -/
def storedSizeIn (tree : Tree) (storageKey : GoString) : Except Error (Option Int) :=
  if !validKey storageKey then .error .storage
  else
    match openRegularInRoot tree storageKey with
    | .ok content => .ok (some content.length)
    | .error .notExist => .ok none
    | .error .failed => .error .storage

/-- An entry of the listing; size and time of what is no regular file are not looked at. -/
def listedEntry (name : GoString) : TreeNode → FileEntry
  | .regular content modifiedAt => ⟨name, content.length, modifiedAt, true⟩
  | _ => ⟨name, 0, 0, false⟩

/-- `ListImages` in such a directory. -/
def listTop (tree : Tree) : List FileEntry :=
  tree.sorted.filterMap fun path =>
    match path with
    | [name] => (tree.node.lookup [name]).map (listedEntry name)
    | _ => none

/-- What a scan reads when nothing changes meanwhile. -/
def scanned (db : Database) (tree : Tree) (thumbnailFiles temporaryFiles : List FileEntry) :
    ScanState where
  records := (Database.orderBy Image.id db.images).map fun v => ⟨v.id, v.storageKey, v.storedSize⟩
  imageFiles := listTop tree
  thumbnailFiles := thumbnailFiles
  temporaryFiles := temporaryFiles

theorem mem_listTop {e : FileEntry} : e ∈ listTop tree ↔
    ∃ name node, tree.node.lookup [name] = some node ∧ e = listedEntry name node := by
  unfold listTop Tree.sorted
  rw [List.mem_filterMap]
  constructor
  · rintro ⟨path, -, found⟩
    split at found
    · rename_i name
      obtain ⟨node, there, rfl⟩ := Option.map_eq_some_iff.mp found
      exact ⟨name, node, there, rfl⟩
    · cases found
  · rintro ⟨name, node, there, rfl⟩
    exact ⟨[name], (Finset.mem_sort _).mpr (Tree.mem_keys there), by simp [there]⟩

theorem listedEntry_key (name : GoString) (node : TreeNode) : (listedEntry name node).key = name := by
  cases node <;> rfl

section Rows

variable {thumbnailFiles temporaryFiles : List FileEntry} {v : Image}

/-- The scan has read the rows of this database. -/
def Reads (s : ScanState) (db : Database) : Prop :=
  s.records = (Database.orderBy Image.id db.images).map fun v => ⟨v.id, v.storageKey, v.storedSize⟩

theorem scanned_reads : Reads (scanned db tree thumbnailFiles temporaryFiles) db := rfl

theorem Reads.mem {s : ScanState} (h : Reads s db) {r : ImageFileRecord} :
    r ∈ s.records ↔ ∃ v ∈ db.images, r = ⟨v.id, v.storageKey, v.storedSize⟩ := by
  rw [h]
  simp only [List.mem_map, Database.orderBy, List.mem_insertionSort, eq_comm]

/-- Storage keys are unique, so the row of a key is the only one. -/
theorem Reads.expected {s : ScanState} (h : Reads s db) (member : v ∈ db.images) :
    s.expected v.storageKey = some ⟨v.id, v.storageKey, v.storedSize⟩ := by
  unfold ScanState.expected
  cases last : (s.records.filter fun r => r.storageKey == v.storageKey).getLast? with
  | none =>
      rw [List.getLast?_eq_none_iff, List.filter_eq_nil_iff] at last
      exact absurd (last _ (h.mem.mpr ⟨v, member, rfl⟩)) (by simp)
  | some r =>
      obtain ⟨listed, same⟩ := List.mem_filter.mp (List.mem_of_getLast? last)
      obtain ⟨u, known, rfl⟩ := h.mem.mp listed
      rw [db.storageKeys.eq known member (by simpa using same)]

theorem Reads.mem_missing {s : ScanState} (h : Reads s db) {id : GoString} :
    id ∈ s.missing.map ImageFileRecord.id ↔
      ∃ v ∈ db.images, v.id = id ∧ ¬ s.present v.storageKey = true := by
  constructor
  · intro listed
    obtain ⟨r, there, rfl⟩ := List.mem_map.mp listed
    obtain ⟨record, absent⟩ := List.mem_filter.mp there
    obtain ⟨v, member, rfl⟩ := h.mem.mp record
    exact ⟨v, member, rfl, by simpa using absent⟩
  · rintro ⟨v, member, rfl, absent⟩
    exact List.mem_map.mpr ⟨⟨v.id, v.storageKey, v.storedSize⟩,
      List.mem_filter.mpr ⟨h.mem.mpr ⟨v, member, rfl⟩, by simpa using absent⟩, rfl⟩

theorem present_iff (member : v ∈ db.images) :
    (scanned db tree thumbnailFiles temporaryFiles).present v.storageKey = true ↔
      ∃ content modifiedAt, tree.node.lookup [v.storageKey] = some (.regular content modifiedAt) ∧
        (content.length : Int) = v.storedSize := by
  rw [ScanState.present, List.any_eq_true, scanned_reads.expected member]
  constructor
  · rintro ⟨e, listed, fits⟩
    obtain ⟨name, node, there, rfl⟩ := mem_listTop.mp listed
    rw [listedEntry_key] at fits
    simp only [Bool.and_eq_true, beq_iff_eq, Option.any_some] at fits
    obtain ⟨⟨rfl, regular⟩, size⟩ := fits
    cases node with
    | regular content modifiedAt => exact ⟨content, modifiedAt, there, size⟩
    | directory => simp [listedEntry] at regular
    | symlink target => simp [listedEntry] at regular
    | other => simp [listedEntry] at regular
  · rintro ⟨content, modifiedAt, there, size⟩
    refine ⟨listedEntry v.storageKey (.regular content modifiedAt),
      mem_listTop.mpr ⟨_, _, there, rfl⟩, ?_⟩
    simp [listedEntry, size]

/-- An entry of the directory itself is found by its name. -/
theorem stat_entry {name : GoString} {content : Bytes} {modifiedAt : Time}
    (entry : tree.node.lookup [name] = some (.regular content modifiedAt)) :
    tree.stat name = .ok (.regular content modifiedAt) := by
  obtain ⟨nonempty, named⟩ := tree.named [name] (Tree.mem_keys entry)
  obtain ⟨follow, same⟩ := @Tree.descend_eq tree true Tree.rootMaxSymlinks
  have single : Tree.splitPathInRoot name [] = .ok [name] := Tree.splitPathInRoot_join nonempty named
  have there := (Tree.at?_some nonempty).mpr entry
  obtain ⟨dot, dots⟩ := Tree.named_plain named name List.mem_cons_self
  refine Tree.bind_ok.mpr ⟨[name], ?_, Tree.nodeAt_ok.mpr there⟩
  rw [single, same, Except.bind, Tree.descendWith, if_neg dot, if_neg dots, if_neg (by simp),
    List.nil_append, there]
  rfl

end Rows

section Verdicts

variable {v : Image}

theorem storedSizeIn_ok {key : GoString} {size : Option Int} :
    storedSizeIn tree key = .ok size ↔ validKey key = true ∧
      (tree.stat key = .error .notExist ∧ size = none ∨
        ∃ content modifiedAt, tree.stat key = .ok (.regular content modifiedAt) ∧
          size = some (content.length : Int)) := by
  unfold storedSizeIn openRegularInRoot
  by_cases valid : validKey key = true
  · rw [if_neg (by simp [valid])]
    cases tree.stat key with
    | error e => cases e <;> simp [valid, eq_comm]
    | ok node => cases node <;> simp [valid, eq_comm]
  · simp [valid]

theorem whole_row_iff : Whole (storedSizeIn tree) (deliveryRow v) ↔
    validKey v.storageKey = true ∧ ∃ content modifiedAt,
      tree.stat v.storageKey = .ok (.regular content modifiedAt) ∧
        (content.length : Int) = v.storedSize := by
  unfold Whole
  rw [storedSizeIn_ok]
  constructor
  · rintro ⟨valid, ⟨-, none⟩ | ⟨content, modifiedAt, found, size⟩⟩
    · cases none
    · exact ⟨valid, content, modifiedAt, found, (Option.some.inj size).symm⟩
  · rintro ⟨valid, content, modifiedAt, found, size⟩
    exact ⟨valid, .inr ⟨content, modifiedAt, found, congrArg some size.symm⟩⟩

/-- The key of a row leads nowhere or to a regular file, and to one of the recorded size only if it is
the entry itself. -/
def OneVerdict (tree : Tree) (v : Image) : Prop :=
  validKey v.storageKey = true ∧
    (tree.stat v.storageKey = .error .notExist ∨
      ∃ content modifiedAt, tree.stat v.storageKey = .ok (.regular content modifiedAt) ∧
        ((content.length : Int) = v.storedSize →
          tree.node.lookup [v.storageKey] = some (.regular content modifiedAt)))

/-- `Build` succeeds and leaves out what the inspection counts as missing, exactly when both judge
every row alike and the stored paths are canonical. -/
theorem inspection_agrees_iff {thumbnailFiles temporaryFiles : List FileEntry} :
    (∃ L, db.built P (storedSizeIn tree) = .ok L ∧
      ∀ id, id ∈ L.result.missingIDs ++ L.result.invalidSizeIDs ↔
        id ∈ (scanned db tree thumbnailFiles temporaryFiles).missing.map ImageFileRecord.id) ↔
      (∀ v ∈ db.images, OneVerdict tree v) ∧
        ∀ a ∈ db.aliases, a.path ≠ str "/" → normalizeAliasPath P a.path = .ok a.path := by
  constructor
  · rintro ⟨L, built, same⟩
    have builds := built_builds built
    refine ⟨?_, builds.canonical⟩
    intro v member
    obtain ⟨size, found⟩ := builds.readable v member
    obtain ⟨valid, ⟨absent, -⟩ | ⟨content, modifiedAt, there, -⟩⟩ := storedSizeIn_ok.mp found
    · exact ⟨valid, .inl absent⟩
    · refine ⟨valid, .inr ⟨content, modifiedAt, there, fun size => ?_⟩⟩
      have whole := whole_row_iff.mpr ⟨valid, content, modifiedAt, there, size⟩
      have loaded : v.id ∉ L.unloaded := by
        rw [builds.unloaded]
        rintro ⟨u, known, equal, broken⟩
        rw [db.imageIDs.eq known member equal] at broken
        exact broken whole
      have present : (scanned db tree thumbnailFiles temporaryFiles).present v.storageKey = true := by
        by_contra missing
        exact loaded ((same v.id).mpr (scanned_reads.mem_missing.mpr ⟨v, member, rfl, missing⟩))
      obtain ⟨content', modifiedAt', entry, -⟩ := (present_iff member).mp present
      have direct := stat_entry entry
      rw [there] at direct
      cases direct
      exact entry
  · rintro ⟨verdicts, canonical⟩
    obtain ⟨L, built⟩ := @builds_total P db (storedSizeIn tree) (fun v member => by
      obtain ⟨valid, absent | ⟨content, modifiedAt, there, -⟩⟩ := verdicts v member
      · exact ⟨none, storedSizeIn_ok.mpr ⟨valid, .inl ⟨absent, rfl⟩⟩⟩
      · exact ⟨_, storedSizeIn_ok.mpr ⟨valid, .inr ⟨content, modifiedAt, there, rfl⟩⟩⟩) canonical
    have builds := built_builds built
    refine ⟨L, built, fun id => ?_⟩
    -- a row is loaded exactly when its file is present in the listing
    have agree : ∀ v ∈ db.images, Whole (storedSizeIn tree) (deliveryRow v) ↔
        (scanned db tree thumbnailFiles temporaryFiles).present v.storageKey = true := by
      intro v member
      obtain ⟨valid, verdict⟩ := verdicts v member
      rw [whole_row_iff, present_iff member]
      constructor
      · rintro ⟨-, content, modifiedAt, there, size⟩
        rcases verdict with absent | ⟨content', modifiedAt', found, direct⟩
        · rw [there] at absent
          cases absent
        · rw [there] at found
          cases found
          exact ⟨content, modifiedAt, direct size, size⟩
      · rintro ⟨content, modifiedAt, entry, size⟩
        exact ⟨valid, content, modifiedAt, stat_entry entry, size⟩
    rw [scanned_reads.mem_missing]
    change id ∈ L.unloaded ↔ _
    rw [builds.unloaded]
    constructor
    · rintro ⟨v, member, equal, broken⟩
      exact ⟨v, member, equal, fun present => broken ((agree v member).mpr present)⟩
    · rintro ⟨v, member, equal, missing⟩
      exact ⟨v, member, equal, fun whole => missing ((agree v member).mp whole)⟩

/-- Where the key of an image is a directory, `Build` fails. -/
theorem directory_stops_build : ¬ ∀ (P : Platform) (db : Database) (tree : Tree)
    (thumbnailFiles temporaryFiles : List FileEntry),
    (∀ a ∈ db.aliases, a.path ≠ str "/" → normalizeAliasPath P a.path = .ok a.path) →
    ∃ L, db.built P (storedSizeIn tree) = .ok L ∧
      ∀ id, id ∈ L.result.missingIDs ++ L.result.invalidSizeIDs ↔
        id ∈ (scanned db tree thumbnailFiles temporaryFiles).missing.map ImageFileRecord.id := by
  intro claim
  obtain ⟨L, built, -⟩ := claim samplePlatform
    (Database.single (sampleImage [1] (str "image/png") .isPublic) [] (by decide) List.nodup_nil
      List.nodup_nil (by simp))
    ⟨[(⟨[str "a"], .directory⟩ : (_ : TreePath) × TreeNode)].toFinmap, by decide, by decide⟩ [] []
    (by simp [Database.single])
  obtain ⟨size, found⟩ := (built_builds built).readable _ (List.mem_singleton_self _)
  obtain ⟨-, ⟨absent, -⟩ | ⟨content, modifiedAt, there, -⟩⟩ := storedSizeIn_ok.mp found
  · cases absent
  · cases there

end Verdicts

end ImageSilo
