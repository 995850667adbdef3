import ImageSilo.MigrationImage.Service

/-! Every item of a snapshot belongs to one entry of the tree, and the pages hold the items of the
snapshot, each once. -/
namespace ImageSilo.Migrations

open Go Storage Delivery

variable {P : Platform} {tree : Tree}

/-- The item of one entry. -/
def item? (P : Platform) (tree : Tree) (path : TreePath) : Option Image :=
  (listedFile P tree path).bind (publicImage P)

structure ItemOf (P : Platform) (tree : Tree) (path : TreePath) (item : Image) : Prop where
  relative : item.relativePath = join slash path
  file : ∃ content, tree.node.lookup path = some (.regular content item.modifiedAt) ∧
    Deliverable P (join slash path) content
  accepted : normalizeAliasPath P item.path = .ok item.path
  decoded : pathUnescape item.path = some (slash :: join slash path)

theorem itemOf_item? {path : TreePath} {item : Image} (found : item? P tree path = some item) :
    ItemOf P tree path item := by
  obtain ⟨file, listed, shown⟩ := Option.bind_eq_some_iff.mp found
  unfold listedFile at listed
  split at listed
  · rename_i content modifiedAt there
    obtain ⟨image, opened, rfl⟩ := Option.map_eq_some_iff.mp listed
    have nonempty : path ≠ [] := by
      rintro rfl
      simp [Tree.at?] at there
    have entry := (Tree.at?_some nonempty).mp there
    obtain ⟨found, deliverable, -⟩ := openMigrationImage_some.mp opened
    rw [Tree.lstat_mem entry] at found
    obtain ⟨rfl, -⟩ : content = image.content ∧ modifiedAt = image.modifiedAt := by simpa using found
    unfold publicImage at shown
    split at shown
    · cases shown
    · rename_i canonical accepted
      cases shown
      refine ⟨rfl, ⟨_, entry, deliverable⟩, normalizeAliasPath_idempotent accepted, ?_⟩
      exact unescape_canonical accepted (pathUnescape_escapedPath _)
  · cases listed

theorem item?_of {path : TreePath} {content : Bytes} {modifiedAt : Time} {canonical : GoString}
    (entry : tree.node.lookup path = some (.regular content modifiedAt))
    (deliverable : Deliverable P (join slash path) content)
    (accepted : normalizeAliasPath P canonical = .ok canonical)
    (decoded : pathUnescape canonical = some (slash :: join slash path)) :
    ∃ item, item? P tree path = some item ∧ item.path = canonical := by
  have nonempty := (tree.named path (Tree.mem_keys entry)).1
  have there := (Tree.at?_some nonempty).mpr entry
  have opened : openMigrationImage P tree.lstat (join slash path) =
      some ⟨content, P.detectContentType (content.take 512), modifiedAt⟩ :=
    openMigrationImage_some.mpr ⟨Tree.lstat_mem entry, deliverable, rfl⟩
  obtain ⟨-, d, same, -, spelled, -, -⟩ := normalizeAliasPath_ok accepted
  obtain rfl : d = slash :: join slash path := Option.some.inj (same.symm.trans decoded)
  have resolves : normalizeAliasPath P (escapedPath (str "/" ++ join slash path)) =
      .ok canonical := by
    have written : escapedPath (str "/" ++ join slash path) = canonical := spelled.symm
    rw [written]
    exact accepted
  refine ⟨⟨canonical, base (join slash path), P.detectContentType (content.take 512),
    P.toLower (ext (join slash path)), content.length, modifiedAt, join slash path⟩, ?_, rfl⟩
  unfold item? listedFile
  rw [there]
  simp only [opened, Option.map_some, Option.bind_some, publicImage, resolves]

/-- An entry is determined by its path on the page. -/
theorem itemOf_injective {path path' : TreePath} {item item' : Image}
    (first : ItemOf P tree path item) (second : ItemOf P tree path' item')
    (same : item.path = item'.path) : path = path' := by
  have decoded := first.decoded
  rw [same, second.decoded] at decoded
  obtain ⟨content, entry, -⟩ := first.file
  obtain ⟨content', entry', -⟩ := second.file
  have joined : join slash path' = join slash path := by simpa using decoded
  have resolved := Tree.resolve_mem (Tree.mem_keys entry)
  rw [← joined, Tree.resolve_mem (Tree.mem_keys entry')] at resolved
  exact (Except.ok.inj resolved).symm

section Order

theorem less_iff {left right : Image} : less left right = true ↔
    right.modifiedAt < left.modifiedAt ∨
      (left.modifiedAt = right.modifiedAt ∧ left.path < right.path) := by
  unfold less
  split
  · rename_i same
    simp [same]
  · rename_i differ
    simp [differ]

theorem not_less_iff {left right : Image} : less left right = false ↔
    left.modifiedAt ≤ right.modifiedAt ∧
      (left.modifiedAt = right.modifiedAt → right.path ≤ left.path) := by
  rw [← Bool.not_eq_true, less_iff, not_or, not_lt, not_and, List.not_lt]

theorem less_total (left right : Image) : less right left = false ∨ less left right = false := by
  rw [not_less_iff, not_less_iff]
  rcases lt_trichotomy left.modifiedAt right.modifiedAt with older | same | newer
  · exact .inr ⟨older.le, fun equal => absurd equal older.ne⟩
  · rcases List.le_total left.path right.path with lower | upper
    · exact .inl ⟨same.ge, fun _ => lower⟩
    · exact .inr ⟨same.le, fun _ => upper⟩
  · exact .inl ⟨newer.le, fun equal => absurd equal newer.ne⟩

theorem less_trans {a b c : Image} (first : less b a = false) (second : less c b = false) :
    less c a = false := by
  rw [not_less_iff] at first second ⊢
  refine ⟨second.1.trans first.1, ?_⟩
  intro same
  have equal : b.modifiedAt = a.modifiedAt := le_antisymm first.1 (same ▸ second.1)
  exact List.le_trans (first.2 equal) (second.2 (same.trans equal.symm))

instance : Std.Total fun left right : Image => less right left = false := ⟨less_total⟩

instance : IsTrans Image fun left right => less right left = false := ⟨fun _ _ _ => less_trans⟩

end Order

section Snapshot

variable {now : Time} {item : Image}

theorem scan_perm : (scanSnapshot P tree now).items.Perm (tree.walked.filterMap (item? P tree)) := by
  refine (List.perm_insertionSort _ _).trans ?_
  rw [listMigrationImages_files, List.filterMap_filterMap]
  exact .refl _

theorem mem_scan :
    item ∈ (scanSnapshot P tree now).items ↔ ∃ path ∈ tree.walked, item? P tree path = some item := by
  rw [scan_perm.mem_iff, List.mem_filterMap]

theorem scan_distinct : ((scanSnapshot P tree now).items.map Image.path).Nodup := by
  rw [(scan_perm.map Image.path).nodup_iff, List.map_filterMap]
  refine List.Nodup.filterMap ?_ ((Finset.sort_nodup _ _).filter _)
  intro path path' canonical found found'
  obtain ⟨item, first, rfl⟩ := Option.map_eq_some_iff.mp found
  obtain ⟨item', second, same⟩ := Option.map_eq_some_iff.mp found'
  exact itemOf_injective (itemOf_item? first) (itemOf_item? second) same.symm

theorem scan_sorted : (scanSnapshot P tree now).items.Pairwise fun left right => less left right := by
  have sorted : (scanSnapshot P tree now).items.Pairwise fun left right => less right left = false :=
    List.pairwise_insertionSort _ _
  have distinct := List.pairwise_map.mp (List.nodup_iff_pairwise_ne.mp (@scan_distinct P tree now))
  refine (sorted.and distinct).imp ?_
  intro left right ⟨order, differ⟩
  rw [not_less_iff] at order
  rw [less_iff]
  rcases order.1.lt_or_eq with older | same
  · exact .inl older
  · refine .inr ⟨same.symm, ?_⟩
    by_contra upper
    exact differ (List.le_antisymm (order.2 same) (List.not_lt.mp upper))

end Snapshot

section Normalization

theorem trimSpace_accepted {raw canonical : GoString}
    (accepted : normalizeAliasPath P raw = .ok canonical) : trimSpace raw = raw := by
  obtain ⟨rawAccepted, -⟩ := normalizeAliasPath_ok accepted
  simp only [acceptsRaw, Bool.and_eq_true, beq_iff_eq] at rawAccepted
  exact rawAccepted.1.2.symm

theorem trimPrefix_slash (rest : GoString) : trimPrefix (slash :: rest) (str "/") = rest := by
  have front : hasPrefix (slash :: rest) (str "/") = true := by
    change (slash == slash && true) = true
    rfl
  rw [trimPrefix, if_pos front]
  rfl

/-- The path of an item leads back to its file. -/
theorem ItemOf.normalizes {path : TreePath} {item : Image} (h : ItemOf P tree path item) :
    normalizeImagePath P item.path = some (item.path, item.relativePath) := by
  obtain ⟨content, -, nonempty, valid, -⟩ := h.file
  unfold normalizeImagePath
  rw [trimSpace_accepted h.accepted, h.accepted]
  simp only [h.decoded, trimPrefix_slash, h.relative, nonempty, valid]
  simp

/-- An accepted path names the file below the root that it decodes to. -/
theorem normalizeImagePath_some {rawPath canonical relativePath : GoString}
    (normal : normalizeImagePath P rawPath = some (canonical, relativePath)) :
    normalizeAliasPath P canonical = .ok canonical ∧
      pathUnescape canonical = some (slash :: relativePath) ∧ validPath relativePath = true := by
  unfold normalizeImagePath at normal
  split at normal
  · cases normal
  rename_i accepted
  split at normal
  · cases normal
  rename_i decoded unescaped
  dsimp only at normal
  split at normal
  · cases normal
  rename_i checked
  cases normal
  have idempotent := normalizeAliasPath_idempotent accepted
  obtain ⟨rest, rfl⟩ := decoded_slash (normalizeAliasPath_ok idempotent).1 unescaped
  rw [trimPrefix_slash] at checked ⊢
  simp only [not_or, Bool.not_eq_true, Bool.not_eq_false'] at checked
  exact ⟨idempotent, unescaped, checked.2⟩

end Normalization

section Pages

/-- A client that reads page after page, until there is no cursor. -/
def readPages (P : Platform) (tree : Tree) (limit : Int) (times : Nat → Time) :
    Nat → Cursor → Service → Option (List Image)
  | 0, _, _ => none
  | fuel + 1, cursor, s =>
      match search P tree (times fuel) ⟨limit, cursor, [], [], 0, 0⟩ s with
      | (none, _) => none
      | (some page, s) =>
          match page.nextCursor with
          | .empty => some page.items
          | next => (readPages P tree limit times fuel next s).map (page.items ++ ·)

/-- The modification times for which `UnixNano` is defined. -/
def Dated (tree : Tree) : Prop :=
  ∀ path content modifiedAt, tree.node.lookup path = some (.regular content modifiedAt) →
    -2 ^ 63 ≤ modifiedAt ∧ modifiedAt < 2 ^ 63

/-- A snapshot that is there is one of this tree. -/
def Service.Current (P : Platform) (tree : Tree) (s : Service) : Prop :=
  ∀ snapshot ∈ s.snapshot, snapshot.items = (scanSnapshot P tree 0).items

variable {s : Service} {now : Time}

theorem scan_time (now : Time) : (scanSnapshot P tree now).items = (scanSnapshot P tree 0).items := rfl

/-- What holds of every scan of the tree and of the snapshot that is there holds of the one loaded. -/
theorem loadSnapshot_keeps {Q : Snapshot → Prop} {force : Bool} (scanned : Q (scanSnapshot P tree now))
    (held : ∀ snapshot ∈ s.snapshot, Q snapshot) :
    Q (loadSnapshot P tree now force s).1 ∧
      ∀ snapshot ∈ (loadSnapshot P tree now force s).2.snapshot, Q snapshot := by
  unfold loadSnapshot
  split
  · rename_i snapshot fresh
    exact ⟨held snapshot (Option.mem_filter_iff.mp (Option.mem_def.mpr fresh)).1, held⟩
  · refine ⟨scanned, ?_⟩
    intro snapshot same
    obtain rfl := Option.some.inj same
    exact scanned

theorem loadSnapshot_current (current : s.Current P tree) {force : Bool} :
    (loadSnapshot P tree now force s).1.items = (scanSnapshot P tree 0).items ∧
      (loadSnapshot P tree now force s).2.Current P tree :=
  loadSnapshot_keeps (scan_time now) current

theorem refresh_current : (refresh P tree now s).Current P tree := by
  intro snapshot same
  obtain rfl := Option.some.inj same
  exact scan_time now

theorem unixNano_dated {t : Time} (low : -2 ^ 63 ≤ t) (high : t < 2 ^ 63) : unixNano t = t := by
  unfold unixNano
  exact Int.bmod_eq_of_le low high

theorem after_last {last item : Image} (here : unixNano last.modifiedAt = last.modifiedAt)
    (there : unixNano item.modifiedAt = item.modifiedAt) :
    after ⟨unixNano last.modifiedAt, last.path⟩ item = less last item := by
  rw [Bool.eq_iff_iff, less_iff]
  simp only [after, here, there, Bool.or_eq_true, Bool.and_eq_true, decide_eq_true_eq]
  rw [eq_comm (a := item.modifiedAt)]

/-- The cursor of an item leads to the items after it. -/
theorem afterCursor_drop {front rest : List Image} {last : Image}
    (sorted : (front ++ last :: rest).Pairwise fun left right => less left right)
    (dated : ∀ item ∈ front ++ last :: rest, unixNano item.modifiedAt = item.modifiedAt) :
    afterCursor (front ++ last :: rest) ⟨unixNano last.modifiedAt, last.path⟩ = rest := by
  have here := dated last (by simp)
  obtain ⟨-, tail, across⟩ := List.pairwise_append.mp sorted
  rw [afterCursor, List.append_cons, List.dropWhile_append_of_pos]
  · cases rest with
    | nil => rfl
    | cons next later =>
        have later : less last next = true := (List.pairwise_cons.mp tail).1 next List.mem_cons_self
        rw [List.dropWhile_cons_of_neg]
        rw [after_last here (dated next (by simp)), later]
        simp
  · intro item member
    have before : less last item = false := by
      rcases List.mem_append.mp member with early | same
      · have order : less item last = true := across item early last List.mem_cons_self
        rw [less_iff] at order
        rw [not_less_iff]
        rcases order with newer | ⟨same, lower⟩
        · exact ⟨newer.le, fun equal => absurd equal newer.ne⟩
        · exact ⟨same.ge, fun _ upper => List.lt_asymm lower upper⟩
      · obtain rfl := List.mem_singleton.mp same
        rw [not_less_iff]
        exact ⟨le_refl _, fun _ => List.le_refl _⟩
    rw [after_last here (dated item (by
      rcases List.mem_append.mp member with early | same
      · simp [early]
      · simp [List.mem_singleton.mp same])), before]
    rfl

theorem effectiveLimit_pos (limit : Int) : 0 < effectiveLimit limit := by
  unfold effectiveLimit
  split <;> omega

/-- One request without a filter shows a part of the snapshot. -/
theorem search_page (lower : P.toLower [] = []) {limit : Int} {cursor : Cursor}
    (current : s.Current P tree) {rest : List Image}
    (position : cursor = .empty ∧ rest = (scanSnapshot P tree 0).items ∨
      ∃ value, cursor = .encoded value ∧ decodeCursor P cursor = some value ∧
        afterCursor (scanSnapshot P tree 0).items value = rest) :
    ∃ snapshot s', search P tree now ⟨limit, cursor, [], [], 0, 0⟩ s =
      (some (page rest (effectiveLimit limit) snapshot s'.mutationsEnabled), s') ∧
        s'.Current P tree := by
  have unfiltered : ∀ items : List Image,
      items.filter (accepts P ⟨limit, cursor, [], [], 0, 0⟩) = items := by
    intro items
    refine List.filter_eq_self.mpr fun item _ => ?_
    have blank : trimSpace [] = [] := rfl
    simp [accepts, blank, lower]
  have loaded := @loadSnapshot_current _ _ _ now current false
  refine ⟨(loadSnapshot P tree now false s).1, (loadSnapshot P tree now false s).2, ?_, loaded.2⟩
  have valid : validListFilter ⟨limit, cursor, [], [], 0, 0⟩ = true := rfl
  unfold search
  rw [valid]
  simp only [Bool.not_true, Bool.false_eq_true, if_false]
  rcases position with ⟨rfl, rfl⟩ | ⟨value, rfl, decoded, rfl⟩
  · simp only [unfiltered, loaded.1]
  · simp only [decoded, unfiltered, loaded.1]

/-- Reading on from a position in the snapshot gives all that comes after it. -/
theorem readPages_rest (lower : P.toLower [] = []) {limit : Int} {times : Nat → Time}
    (dated : Dated tree) {fuel : Nat} {cursor : Cursor} {front rest : List Image}
    (current : s.Current P tree) (whole : (scanSnapshot P tree 0).items = front ++ rest)
    (position : cursor = .empty ∧ front = [] ∨
      ∃ value, cursor = .encoded value ∧ decodeCursor P cursor = some value ∧
        afterCursor (scanSnapshot P tree 0).items value = rest)
    (enough : rest.length < fuel) :
    readPages P tree limit times fuel cursor s = some rest := by
  induction fuel generalizing cursor front rest s with
  | zero => exact absurd enough (Nat.not_lt_zero _)
  | succ fuel ih =>
      have positive := effectiveLimit_pos limit
      obtain ⟨snapshot, s', searched, current'⟩ :=
        @search_page P tree s (times fuel) lower limit cursor current rest
          (position.imp (fun h => ⟨h.1, by rw [whole, h.2, List.nil_append]⟩) fun h => h)
      rw [readPages, searched]
      simp only
      unfold page
      by_cases long : effectiveLimit limit < rest.length
      · rw [if_pos long]
        simp only
        have split := List.take_append_drop (effectiveLimit limit) rest
        have nonempty : rest.take (effectiveLimit limit) ≠ [] := by
          rw [Ne, List.take_eq_nil_iff]
          rintro (none | none)
          · exact positive.ne' none
          · simp [none] at long
        generalize shown : rest.take (effectiveLimit limit) = part at split nonempty
        generalize later : rest.drop (effectiveLimit limit) = others at split
        obtain ⟨before, last, rfl⟩ := List.eq_nil_or_concat' part |>.resolve_left nonempty
        rw [List.getLast?_concat]
        simp only
        have located : (scanSnapshot P tree 0).items = (front ++ before) ++ last :: others := by
          rw [whole, ← split]
          simp
        have member : last ∈ (scanSnapshot P tree 0).items := by
          rw [located]
          simp
        have known : ∀ item ∈ (scanSnapshot P tree 0).items,
            unixNano item.modifiedAt = item.modifiedAt := by
          intro item there
          obtain ⟨path, -, found⟩ := mem_scan.mp there
          obtain ⟨content, entry, -⟩ := (itemOf_item? found).file
          exact unixNano_dated (dated _ _ _ entry).1 (dated _ _ _ entry).2
        obtain ⟨path, -, found⟩ := mem_scan.mp member
        have decoded : decodeCursor P (.encoded ⟨unixNano last.modifiedAt, last.path⟩) =
            some ⟨unixNano last.modifiedAt, last.path⟩ := by
          simp [decodeCursor, (itemOf_item? found).normalizes]
        have dropped := afterCursor_drop (located ▸ scan_sorted) (located ▸ known)
        rw [@ih _ _ (front ++ (before ++ [last])) others current' ?_ ?_ ?_]
        · rw [Option.map_some, split]
        · rw [located]
          simp
        · exact .inr ⟨_, rfl, decoded, by rw [located]; exact dropped⟩
        · have total := congrArg List.length split
          simp only [List.length_append, List.length_singleton] at total
          omega
      · rw [if_neg long]

/-- All pages together are the snapshot. -/
theorem readPages_all (lower : P.toLower [] = []) (dated : Dated tree) {limit : Int}
    {times : Nat → Time} {fuel : Nat} (current : s.Current P tree)
    (enough : (scanSnapshot P tree 0).items.length < fuel) :
    readPages P tree limit times fuel .empty s = some (scanSnapshot P tree 0).items :=
  @readPages_rest _ _ _ lower _ _ dated _ _ [] _ current rfl (.inl ⟨rfl, rfl⟩) enough

end Pages

end ImageSilo.Migrations
