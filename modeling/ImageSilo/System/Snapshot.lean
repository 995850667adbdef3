import ImageSilo.System.Machine

/-! `State.built` is `Build` on a database and an images directory that do not move meanwhile. -/
namespace ImageSilo

open Go Tables Delivery

def Storage.sizeIn (d : Storage.Directory) (storageKey : GoString) : Except Error (Option Int) :=
  if !Storage.validKey storageKey then .error .storage
  else
    match Storage.openRegular d storageKey with
    | .ok content => .ok (some content.length)
    | .error .notExist => .ok none
    | .error .failed => .error .storage

theorem Storage.sizeIn_some {d : Storage.Directory} {key : GoString} {n : Int} :
    sizeIn d key = .ok (some n) ↔ validKey key = true ∧ key ≠ str "." ∧
      ∃ content t, d.lookup key = some ⟨.regular content, t⟩ ∧ (content.length : Int) = n := by
  unfold sizeIn openRegular
  by_cases valid : validKey key = true
  · rw [if_neg (by simp [valid])]
    by_cases dot : key = str "."
    · simp [dot]
    · rw [if_neg dot]
      cases d.lookup key with
      | none => simp
      | some entry =>
          obtain ⟨node, t⟩ := entry
          cases node <;> simp [valid, dot]
  · simp [valid]

def State.source (σ : State) : Source Id where
  deliveryRows := (σ.database.execute .deliveryRows).1
  storedSize := Storage.sizeIn σ.files.images
  aliasRows := (σ.database.execute .aliasRows).1

def State.built (P : Platform) (σ : State) : Except LoadError Loading := build P σ.source

/-- The index is the one that `Build` computes of the state. -/
def State.Indexed (P : Platform) (σ : State) : Prop :=
  ∃ L, σ.built P = .ok L ∧ σ.index = ⟨L.snapshot.targets, L.snapshot.aliases⟩

section Rows

variable {size : GoString → Except Error (Option Int)}

/-- The file of a row has the size the row records. -/
def Whole (size : GoString → Except Error (Option Int)) (row : DeliveryRow) : Prop :=
  size row.storageKey = .ok (some row.size)

/-- The images that `Build` has left out. -/
def Delivery.Loading.unloaded (L : Loading) : List GoString :=
  L.result.missingIDs ++ L.result.invalidSizeIDs

theorem whole_iff {row : DeliveryRow} {s : Option Int} (found : size row.storageKey = .ok s) :
    Whole size row ↔ s = some row.size := by
  unfold Whole
  rw [found, Except.ok.injEq]

theorem addRow_lookup (L : Loading) (row : DeliveryRow) (s : Option Int) (id : GoString) :
    (L.addRow row s).snapshot.targets.lookup id =
      if s = some row.size ∧ id = row.id then some (targetOfRow row)
      else L.snapshot.targets.lookup id := by
  unfold Loading.addRow
  cases s with
  | none => simp
  | some n =>
      by_cases fits : n = row.size
      · simp [fits, lookup_insert_ite]
      · simp [fits]

theorem addRow_unloaded (L : Loading) (row : DeliveryRow) (s : Option Int) (id : GoString) :
    id ∈ (L.addRow row s).unloaded ↔ id ∈ L.unloaded ∨ (s ≠ some row.size ∧ id = row.id) := by
  unfold Loading.addRow Loading.unloaded
  cases s with
  | none =>
      simp only [List.mem_append, List.mem_singleton, ne_eq, reduceCtorEq, not_false_eq_true,
        true_and]
      tauto
  | some n =>
      by_cases fits : n = row.size
      · simp [fits]
      · simp only [ne_eq, fits, not_false_eq_true, ↓reduceIte, List.mem_append,
          List.mem_singleton, Option.some.injEq, true_and]
        tauto

theorem addRow_aliases (L : Loading) (row : DeliveryRow) (s : Option Int) :
    (L.addRow row s).snapshot.aliases = L.snapshot.aliases := by
  unfold Loading.addRow
  cases s with
  | none => rfl
  | some n =>
      dsimp only
      split <;> rfl

/-- `L'` is `L` and the given rows, as far as their files are whole. -/
structure Filled (size : GoString → Except Error (Option Int)) (rows : List DeliveryRow)
    (L L' : Loading) : Prop where
  readable : ∀ row ∈ rows, ∃ s, size row.storageKey = .ok s
  loaded : ∀ row ∈ rows, Whole size row →
    L'.snapshot.targets.lookup row.id = some (targetOfRow row)
  only : ∀ id t, L'.snapshot.targets.lookup id = some t → L.snapshot.targets.lookup id = some t ∨
    ∃ row ∈ rows, Whole size row ∧ row.id = id ∧ t = targetOfRow row
  kept : ∀ id, (∀ row ∈ rows, row.id ≠ id) →
    L'.snapshot.targets.lookup id = L.snapshot.targets.lookup id
  unloaded : ∀ id, id ∈ L'.unloaded ↔ id ∈ L.unloaded ∨
    ∃ row ∈ rows, ¬ Whole size row ∧ row.id = id
  aliases : L'.snapshot.aliases = L.snapshot.aliases

theorem filled_nil (size : GoString → Except Error (Option Int)) (L : Loading) :
    Filled size [] L L :=
  ⟨by simp, by simp, fun _ _ => .inl, fun _ _ => rfl, by simp, rfl⟩

theorem Filled.cons {row : DeliveryRow} {rest : List DeliveryRow} {s : Option Int} {L L' : Loading}
    (found : size row.storageKey = .ok s) (apart : ∀ other ∈ rest, other.id ≠ row.id)
    (filled : Filled size rest (L.addRow row s) L') : Filled size (row :: rest) L L' := by
  refine ⟨?_, ?_, ?_, ?_, ?_, ?_⟩
  · intro other member
    rcases List.mem_cons.mp member with rfl | later
    · exact ⟨s, found⟩
    · exact filled.readable other later
  · intro other member whole
    rcases List.mem_cons.mp member with rfl | later
    · rw [filled.kept other.id apart, addRow_lookup, if_pos ⟨(whole_iff found).mp whole, rfl⟩]
    · exact filled.loaded other later whole
  · intro id t there
    rcases filled.only id t there with before | ⟨other, later, whole, same, eq⟩
    · rw [addRow_lookup] at before
      split at before
      · rename_i new
        cases before
        exact .inr ⟨row, List.mem_cons_self, (whole_iff found).mpr new.1, new.2.symm, rfl⟩
      · exact .inl before
    · exact .inr ⟨other, List.mem_cons_of_mem row later, whole, same, eq⟩
  · intro id none
    rw [filled.kept id fun other later => none other (List.mem_cons_of_mem row later),
      addRow_lookup, if_neg]
    rintro ⟨-, same⟩
    exact none row List.mem_cons_self same.symm
  · intro id
    rw [filled.unloaded id, addRow_unloaded, ne_eq, ← whole_iff found]
    simp only [List.mem_cons, exists_eq_or_imp]
    constructor
    · rintro ((old | ⟨bad, same⟩) | later)
      · exact .inl old
      · exact .inr (.inl ⟨bad, same.symm⟩)
      · exact .inr (.inr later)
    · rintro (old | ⟨bad, same⟩ | later)
      · exact .inl (.inl old)
      · exact .inl (.inr ⟨bad, same.symm⟩)
      · exact .inr later
  · rw [filled.aliases, addRow_aliases]

theorem addRows_filled {rows : List DeliveryRow} {L L' : Loading}
    (unique : Unique DeliveryRow.id rows) (added : addRows (m := Id) size L rows = .ok L') :
    Filled size rows L L' := by
  induction rows generalizing L with
  | nil =>
      cases added
      exact filled_nil size _
  | cons row rest ih =>
      obtain ⟨apart, unique'⟩ := List.nodup_cons.mp unique
      unfold addRows at added
      cases found : size row.storageKey with
      | error e => simp [found, bind, pure] at added
      | ok s =>
          refine Filled.cons found ?_ (ih unique' (by simpa [found, bind] using added))
          intro other later same
          exact apart (List.mem_map.mpr ⟨other, later, same⟩)

/-- Readable files are all that `Build` needs of the images directory. -/
theorem addRows_total {rows : List DeliveryRow} (L : Loading)
    (readable : ∀ row ∈ rows, ∃ s, size row.storageKey = .ok s) :
    ∃ L', addRows (m := Id) size L rows = .ok L' := by
  induction rows generalizing L with
  | nil => exact ⟨L, rfl⟩
  | cons row rest ih =>
      obtain ⟨s, found⟩ := readable row List.mem_cons_self
      obtain ⟨L', added⟩ := ih (L.addRow row s) fun other later =>
        readable other (List.mem_cons_of_mem row later)
      exact ⟨L', by simpa [addRows, found, bind] using added⟩

/-- Reading the rows fails on an unreadable file, and on nothing else. -/
theorem addRows_error {rows : List DeliveryRow} {L : Loading} {e : LoadError}
    (failed : addRows (m := Id) size L rows = .error e) :
    e = .storage ∧ ¬ ∀ row ∈ rows, ∃ s, size row.storageKey = .ok s := by
  constructor
  · induction rows generalizing L with
    | nil => cases failed
    | cons row rest ih =>
        unfold addRows at failed
        cases found : size row.storageKey with
        | error e' =>
            rw [found] at failed
            cases failed
            rfl
        | ok s =>
            rw [found] at failed
            exact ih failed
  · intro readable
    obtain ⟨L', added⟩ := addRows_total L readable
    rw [added] at failed
    cases failed

end Rows

section Aliases

variable {P : Platform}

theorem addAlias_lookup {L L' : Loading} {path imageID : GoString}
    (added : L.addAlias P path imageID = .ok L') (other : GoString) :
    L'.snapshot.targets = L.snapshot.targets ∧ L'.unloaded = L.unloaded ∧
      L'.snapshot.aliases.lookup other =
        if other = path ∧ path ≠ str "/" ∧ imageID ∉ L.unloaded then some imageID
        else L.snapshot.aliases.lookup other := by
  unfold Loading.addAlias at added
  split at added
  · rename_i root
    cases added
    exact ⟨rfl, rfl, by simp [root, Loading.skipAlias]⟩
  rename_i root
  split at added
  · cases added
  split at added
  · cases added
  split at added
  · rename_i skipped
    cases added
    refine ⟨rfl, rfl, ?_⟩
    rw [if_neg]
    · rfl
    · exact fun fits => fits.2.2 skipped
  rename_i kept
  split at added
  · cases added
  split at added
  · cases added
  cases added
  refine ⟨rfl, rfl, ?_⟩
  dsimp only
  rw [lookup_insert_ite]
  by_cases same : other = path
  · rw [if_pos same, if_pos ⟨same, root, kept⟩]
  · rw [if_neg same, if_neg fun fits => same fits.1]

/-- The conditions under which `Build` accepts an alias row. -/
theorem addAlias_ok {L L' : Loading} {path imageID : GoString}
    (added : L.addAlias P path imageID = .ok L') (root : path ≠ str "/") :
    normalizeAliasPath P path = .ok path := by
  unfold Loading.addAlias at added
  rw [if_neg root] at added
  split at added
  · cases added
  rename_i normalized accepted
  split at added
  · cases added
  · rename_i same
    rw [accepted, not_not.mp same]

structure Mapped (P : Platform) (rows : List (GoString × GoString)) (L L' : Loading) : Prop where
  targets : L'.snapshot.targets = L.snapshot.targets
  unloaded : L'.unloaded = L.unloaded
  canonical : ∀ row ∈ rows, row.1 ≠ str "/" → normalizeAliasPath P row.1 = .ok row.1
  mapped : ∀ row ∈ rows, row.1 ≠ str "/" → row.2 ∉ L.unloaded →
    L'.snapshot.aliases.lookup row.1 = some row.2
  only : ∀ path id, L'.snapshot.aliases.lookup path = some id →
    L.snapshot.aliases.lookup path = some id ∨
      (path, id) ∈ rows ∧ path ≠ str "/" ∧ id ∉ L.unloaded
  kept : ∀ path, (∀ row ∈ rows, row.1 ≠ path) →
    L'.snapshot.aliases.lookup path = L.snapshot.aliases.lookup path

theorem addAliases_mapped {rows : List (GoString × GoString)} {L L' : Loading}
    (unique : Unique Prod.fst rows) (added : L.addAliases P rows = .ok L') : Mapped P rows L L' := by
  induction rows generalizing L with
  | nil =>
      cases added
      exact ⟨rfl, rfl, by simp, by simp, fun _ _ => .inl, fun _ _ => rfl⟩
  | cons row rest ih =>
      obtain ⟨path, imageID⟩ := row
      obtain ⟨apart, unique'⟩ := List.nodup_cons.mp unique
      unfold Loading.addAliases at added
      split at added
      · cases added
      rename_i L₁ first
      have mapped := ih unique' added
      have step := addAlias_lookup first
      have unloaded : L₁.unloaded = L.unloaded := (step path).2.1
      refine ⟨?_, ?_, ?_, ?_, ?_, ?_⟩
      · rw [mapped.targets, (step path).1]
      · rw [mapped.unloaded, unloaded]
      · intro row member root
        rcases List.mem_cons.mp member with rfl | later
        · exact addAlias_ok first root
        · exact mapped.canonical row later root
      · intro row member root there
        rcases List.mem_cons.mp member with rfl | later
        · rw [mapped.kept path, (step path).2.2, if_pos ⟨rfl, root, there⟩]
          intro other later same
          exact apart (List.mem_map.mpr ⟨other, later, same⟩)
        · exact mapped.mapped row later root (by rwa [unloaded])
      · intro p id there
        rcases mapped.only p id there with before | ⟨later, root, present⟩
        · rw [(step p).2.2] at before
          split at before
          · rename_i new
            cases before
            rw [new.1]
            exact .inr ⟨List.mem_cons_self, new.2.1, new.2.2⟩
          · exact .inl before
        · rw [unloaded] at present
          exact .inr ⟨List.mem_cons_of_mem _ later, root, present⟩
      · intro p none
        rw [mapped.kept p fun other later => none other (List.mem_cons_of_mem _ later),
          (step p).2.2, if_neg]
        rintro ⟨same, -⟩
        exact none (path, imageID) List.mem_cons_self same.symm

/-- Canonical paths of known images are all that `Build` needs of the alias table. -/
theorem addAliases_total {rows : List (GoString × GoString)} (L : Loading)
    (unique : Unique Prod.fst rows)
    (canonical : ∀ row ∈ rows, row.1 ≠ str "/" → normalizeAliasPath P row.1 = .ok row.1)
    (known : ∀ row ∈ rows, row.2 ∉ L.unloaded → (L.snapshot.targets.lookup row.2).isSome)
    (fresh : ∀ row ∈ rows, L.snapshot.aliases.lookup row.1 = none) :
    ∃ L', L.addAliases P rows = .ok L' := by
  induction rows generalizing L with
  | nil => exact ⟨L, rfl⟩
  | cons row rest ih =>
      obtain ⟨path, imageID⟩ := row
      obtain ⟨apart, unique'⟩ := List.nodup_cons.mp unique
      obtain ⟨L₁, first⟩ : ∃ L₁, L.addAlias P path imageID = .ok L₁ := by
        unfold Loading.addAlias
        split
        · exact ⟨_, rfl⟩
        rename_i root
        rw [canonical _ List.mem_cons_self root]
        dsimp only
        rw [if_neg (by simp)]
        split
        · exact ⟨_, rfl⟩
        rename_i present
        have there := known _ List.mem_cons_self present
        have unused := fresh _ List.mem_cons_self
        dsimp only at there unused
        rw [if_neg (by simpa [Option.isSome_iff_ne_none] using there), if_neg (by simp [unused])]
        exact ⟨_, rfl⟩
      have step := addAlias_lookup first
      obtain ⟨L', rest'⟩ := ih L₁ unique'
        (fun row later => canonical row (List.mem_cons_of_mem _ later))
        (fun row later present => by
          rw [(step path).1]
          rw [(step path).2.1] at present
          exact known row (List.mem_cons_of_mem _ later) present)
        (fun row later => by
          rw [(step row.1).2.2, if_neg]
          · exact fresh row (List.mem_cons_of_mem _ later)
          · rintro ⟨same, -⟩
            exact apart (List.mem_map.mpr ⟨row, later, same⟩))
      refine ⟨L', ?_⟩
      unfold Loading.addAliases
      rw [first]
      exact rest'

end Aliases

section Built

variable {P : Platform} {db : Database} {size : GoString → Except Error (Option Int)} {σ : State}
  {L : Loading}

/-- `Build` on a database and a directory in which the files have these sizes. -/
def Database.built (P : Platform) (size : GoString → Except Error (Option Int)) (db : Database) :
    Except LoadError Loading :=
  build (m := Id) P ⟨(db.execute .deliveryRows).1, size, (db.execute .aliasRows).1⟩

/-- The file of an image row is there with the recorded size. -/
def State.whole (σ : State) (v : Image) : Prop :=
  Whole (Storage.sizeIn σ.files.images) (deliveryRow v)

theorem built_eq : db.built P size =
    match addRows (m := Id) size Loading.start
        ((Database.orderBy Image.id db.images).map deliveryRow) with
    | .error e => .error e
    | .ok L => L.addAliases P
        ((Database.orderBy Alias.path db.aliases).map fun a => (a.path, a.imageID)) := by
  unfold Database.built build
  dsimp only [Database.execute, bind, pure]
  cases addRows (m := Id) size Loading.start
    ((Database.orderBy Image.id db.images).map deliveryRow) <;> rfl

theorem rows_unique (db : Database) : Unique DeliveryRow.id
    ((Database.orderBy Image.id db.images).map deliveryRow) := by
  unfold Tables.Unique
  rw [List.map_map]
  exact ((List.perm_insertionSort _ db.images).map Image.id).nodup_iff.mpr db.imageIDs

theorem paths_unique (db : Database) : Unique Prod.fst
    ((Database.orderBy Alias.path db.aliases).map fun a => (a.path, a.imageID)) := by
  unfold Tables.Unique
  rw [List.map_map]
  exact ((List.perm_insertionSort _ db.aliases).map Alias.path).nodup_iff.mpr db.aliasPaths

theorem mem_rows {row : DeliveryRow} :
    row ∈ (Database.orderBy Image.id db.images).map deliveryRow ↔
      ∃ v ∈ db.images, deliveryRow v = row := by
  simp only [List.mem_map, Database.orderBy, List.mem_insertionSort]

theorem mem_paths {row : GoString × GoString} :
    row ∈ (Database.orderBy Alias.path db.aliases).map (fun a => (a.path, a.imageID)) ↔
      ∃ a ∈ db.aliases, (a.path, a.imageID) = row := by
  simp only [List.mem_map, Database.orderBy, List.mem_insertionSort]

/-- What `Build` computes. -/
structure Builds (P : Platform) (db : Database) (size : GoString → Except Error (Option Int))
    (L : Loading) : Prop where
  readable : ∀ v ∈ db.images, ∃ s, size v.storageKey = .ok s
  canonical : ∀ a ∈ db.aliases, a.path ≠ str "/" → normalizeAliasPath P a.path = .ok a.path
  target : ∀ id t, L.snapshot.targets.lookup id = some t ↔
    ∃ v ∈ db.images, v.id = id ∧ Whole size (deliveryRow v) ∧ t = targetOfRow (deliveryRow v)
  mapping : ∀ path id, L.snapshot.aliases.lookup path = some id ↔
    ∃ a ∈ db.aliases, a.path = path ∧ a.imageID = id ∧ path ≠ str "/" ∧
      ∃ v ∈ db.images, v.id = id ∧ Whole size (deliveryRow v)
  unloaded : ∀ id, id ∈ L.unloaded ↔ ∃ v ∈ db.images, v.id = id ∧ ¬ Whole size (deliveryRow v)

theorem built_builds (built : db.built P size = .ok L) : Builds P db size L := by
  rw [built_eq] at built
  split at built
  · cases built
  rename_i L₁ loaded
  have filled := addRows_filled (rows_unique db) loaded
  have mapped := addAliases_mapped (paths_unique db) built
  have row : ∀ v ∈ db.images, deliveryRow v ∈
      (Database.orderBy Image.id db.images).map deliveryRow :=
    fun v member => mem_rows.mpr ⟨v, member, rfl⟩
  have left : ∀ id, id ∈ L₁.unloaded ↔
      ∃ v ∈ db.images, v.id = id ∧ ¬ Whole size (deliveryRow v) := by
    intro id
    rw [filled.unloaded]
    constructor
    · rintro (start | ⟨r, listed, broken, same⟩)
      · simp [Loading.unloaded, Loading.start] at start
      · obtain ⟨v, known, rfl⟩ := mem_rows.mp listed
        exact ⟨v, known, same, broken⟩
    · rintro ⟨v, known, same, broken⟩
      exact .inr ⟨deliveryRow v, row v known, broken, same⟩
  -- an image is left out exactly when its file is not whole
  have out : ∀ v ∈ db.images, v.id ∉ L₁.unloaded ↔ Whole size (deliveryRow v) := by
    intro v member
    rw [left]
    constructor
    · intro loaded
      by_contra broken
      exact loaded ⟨v, member, rfl, broken⟩
    · rintro whole ⟨u, known, same, broken⟩
      rw [db.imageIDs.eq known member same] at broken
      exact broken whole
  refine ⟨?_, ?_, ?_, ?_, ?_⟩
  · exact fun v member => filled.readable (deliveryRow v) (row v member)
  · exact fun a member root => mapped.canonical _ (mem_paths.mpr ⟨a, member, rfl⟩) root
  · intro id t
    rw [mapped.targets]
    constructor
    · intro there
      rcases filled.only id t there with start | ⟨r, listed, whole, same, eq⟩
      · simp [Loading.start] at start
      · obtain ⟨v, known, rfl⟩ := mem_rows.mp listed
        exact ⟨v, known, same, whole, eq⟩
    · rintro ⟨v, known, rfl, whole, rfl⟩
      exact filled.loaded (deliveryRow v) (row v known) whole
  · intro path id
    constructor
    · intro there
      rcases mapped.only path id there with start | ⟨listed, root, present⟩
      · rw [filled.aliases] at start
        simp [Loading.start] at start
      · obtain ⟨a, known, eq⟩ := mem_paths.mp listed
        cases eq
        obtain ⟨v, image, same⟩ := db.aliasImages a known
        rw [← same] at present
        exact ⟨a, known, rfl, rfl, root, v, image, same, (out v image).mp present⟩
    · rintro ⟨a, known, rfl, rfl, root, v, image, same, whole⟩
      refine mapped.mapped (a.path, a.imageID) (mem_paths.mpr ⟨a, known, rfl⟩) root ?_
      rw [← same]
      exact (out v image).mpr whole
  · intro id
    rw [mapped.unloaded]
    exact left id

/-- With canonical paths the aliases are accepted whatever images have been loaded. -/
theorem paths_accepted
    (canonical : ∀ a ∈ db.aliases, a.path ≠ str "/" → normalizeAliasPath P a.path = .ok a.path)
    {L₁ : Loading}
    (loaded : addRows (m := Id) size Loading.start
      ((Database.orderBy Image.id db.images).map deliveryRow) = .ok L₁) :
    ∃ L, L₁.addAliases P
      ((Database.orderBy Alias.path db.aliases).map fun a => (a.path, a.imageID)) = .ok L := by
  have filled := addRows_filled (rows_unique db) loaded
  refine addAliases_total L₁ (paths_unique db) ?_ ?_ ?_
  · intro row listed root
    obtain ⟨a, known, rfl⟩ := mem_paths.mp listed
    exact canonical a known root
  · intro row listed present
    obtain ⟨a, known, rfl⟩ := mem_paths.mp listed
    obtain ⟨v, image, same⟩ := db.aliasImages a known
    have member := mem_rows.mpr ⟨v, image, rfl⟩
    by_cases whole : Whole size (deliveryRow v)
    · dsimp only
      rw [← same]
      exact Option.isSome_iff_exists.mpr ⟨_, filled.loaded _ member whole⟩
    · refine absurd ((filled.unloaded _).mpr (.inr ⟨deliveryRow v, member, whole, same⟩)) present
  · intro row listed
    rw [filled.aliases]
    simp [Loading.start]

/-- `Build` fails on unreadable files and on paths that are not canonical, and on nothing else. -/
theorem builds_total
    (readable : ∀ v ∈ db.images, ∃ s, size v.storageKey = .ok s)
    (canonical : ∀ a ∈ db.aliases, a.path ≠ str "/" → normalizeAliasPath P a.path = .ok a.path) :
    ∃ L, db.built P size = .ok L := by
  rw [built_eq]
  obtain ⟨L₁, loaded⟩ := @addRows_total size
    ((Database.orderBy Image.id db.images).map deliveryRow) Loading.start (by
      intro row listed
      obtain ⟨v, known, rfl⟩ := mem_rows.mp listed
      exact readable v known)
  rw [loaded]
  exact paths_accepted canonical loaded

/-- `L` is what `Build` computes of the state. -/
structure Describing (P : Platform) (σ : State) (L : Loading) : Prop where
  readable : ∀ v ∈ σ.database.images, ∃ s, Storage.sizeIn σ.files.images v.storageKey = .ok s
  canonical : ∀ a ∈ σ.database.aliases, a.path ≠ str "/" →
    normalizeAliasPath P a.path = .ok a.path
  target : ∀ id t, L.snapshot.targets.lookup id = some t ↔
    ∃ v ∈ σ.database.images, v.id = id ∧ σ.whole v ∧ t = targetOfRow (deliveryRow v)
  mapping : ∀ path id, L.snapshot.aliases.lookup path = some id ↔
    ∃ a ∈ σ.database.aliases, a.path = path ∧ a.imageID = id ∧ path ≠ str "/" ∧
      ∃ v ∈ σ.database.images, v.id = id ∧ σ.whole v

theorem built_describes (built : σ.built P = .ok L) : Describing P σ L := by
  have builds : Builds P σ.database (Storage.sizeIn σ.files.images) L := built_builds built
  exact ⟨builds.readable, builds.canonical, builds.target, builds.mapping⟩

theorem built_total
    (readable : ∀ v ∈ σ.database.images, ∃ s, Storage.sizeIn σ.files.images v.storageKey = .ok s)
    (canonical : ∀ a ∈ σ.database.aliases, a.path ≠ str "/" →
      normalizeAliasPath P a.path = .ok a.path) : ∃ L, σ.built P = .ok L :=
  builds_total readable canonical

theorem built_error (canonical : ∀ a ∈ σ.database.aliases, a.path ≠ str "/" →
      normalizeAliasPath P a.path = .ok a.path) {e : LoadError} (failed : σ.built P = .error e) :
    e = .storage ∧
      ¬ ∀ v ∈ σ.database.images, ∃ s, Storage.sizeIn σ.files.images v.storageKey = .ok s := by
  change σ.database.built P (Storage.sizeIn σ.files.images) = .error e at failed
  rw [built_eq] at failed
  split at failed
  · rename_i e' loading
    cases failed
    obtain ⟨isStorage, unreadable⟩ := addRows_error loading
    refine ⟨isStorage, fun readable => unreadable ?_⟩
    intro row listed
    obtain ⟨v, known, rfl⟩ := mem_rows.mp listed
    exact readable v known
  · rename_i L₁ loaded
    obtain ⟨L, accepted⟩ := paths_accepted canonical loaded
    rw [failed] at accepted
    cases accepted

end Built

end ImageSilo
