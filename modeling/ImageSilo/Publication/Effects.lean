import ImageSilo.Publication.Locking

/-! `Change` and `Moved` list what a statement and a file action can do, interrupted ones included. -/
namespace ImageSilo.Publication

open Go Concurrent Storage Tables

section Statements

/-- The outcomes that leave the image and alias tables alone. -/
def Reading : (q : Statement) → Except DatabaseError q.Value → Prop
  | .createImage _, .ok _ => False
  | .createImport _ _, .ok _ => False
  | .deleteImage _, .ok _ => False
  | .updateVisibility _ _, .ok true => False
  | .updateContent _, .ok true => False
  | .createAlias _, .ok true => False
  | .deleteAlias _, .ok _ => False
  | _, _ => True

inductive Change (db : Database) :
    (q : Statement) → Except DatabaseError q.Value → Database → Prop
  | created (v : Image) (db' : Database) : db.insertImage (Database.storedImage v) = some db' →
      Change db (.createImage v) (.ok ()) db'
  | imported (v : Image) (a : Alias) (db₁ db₂ : Database) :
      db.insertImage (Database.storedImage { v with uploadedVia := str "import" }) = some db₁ →
      db₁.insertAlias { a with createdAt := ofUnix (unix a.createdAt) } = some db₂ →
      Change db (.createImport v a) (.ok ()) db₂
  | erased (id : GoString) (row : Image) : db.image? id = some row →
      Change db (.deleteImage id) (.ok row) (db.removeImage id)
  | erasedUnseen (id : GoString) (row : Image) : db.image? id = some row →
      Change db (.deleteImage id) (.error .failed) (db.removeImage id)
  | shown (id : GoString) (visibility : Visibility) (row : Image) (db' : Database) :
      db.image? id = some row →
      db.replaceImage { row with visibility := visibility } = some db' →
      Change db (.updateVisibility id visibility) (.ok true) db'
  | replaced (v row : Image) (db' : Database) : db.image? v.id = some row →
      db.replaceImage (Database.withContent row v) = some db' →
      Change db (.updateContent v) (.ok true) db'
  | aliased (a : Alias) (db' : Database) : (db.image? a.imageID).isSome →
      db.insertAlias { a with createdAt := ofUnix (unix a.createdAt) } = some db' →
      Change db (.createAlias a) (.ok true) db'
  | unaliased (id : GoString) (row : Alias) : row? Alias.id id db.aliases = some row →
      Change db (.deleteAlias id) (.ok row.path) (db.removeAlias id)
  | unaliasedUnseen (id : GoString) (row : Alias) : row? Alias.id id db.aliases = some row →
      Change db (.deleteAlias id) (.error .failed) (db.removeAlias id)
  | none (q : Statement) (r : Except DatabaseError q.Value) (db' : Database) : Reading q r →
      db'.images = db.images → db'.aliases = db.aliases → Change db q r db'

variable {db : Database} {q : Statement}

theorem inserted_cases (db : Database) (e : DatabaseError) (result : Option Database) :
    (∃ db', result = some db' ∧ db.inserted e result = (.ok (), db')) ∨
      db.inserted e result = (.error e, db) := by
  cases result with
  | none => exact .inr rfl
  | some db' => exact .inl ⟨db', rfl, rfl⟩

theorem updateImage_cases (db : Database) (id : GoString) (change : Image → Image) :
    (∃ row db', db.image? id = some row ∧ db.replaceImage (change row) = some db' ∧
        db.updateImage id change = (.ok true, db')) ∨
      (db.updateImage id change = (.ok false, db) ∧ db.image? id = none) ∨
        db.updateImage id change = (.error .failed, db) := by
  unfold Database.updateImage
  cases found : db.image? id with
  | none => exact .inr (.inl ⟨rfl, rfl⟩)
  | some row =>
      dsimp only
      cases replaced : db.replaceImage (change row) with
      | none => exact .inr (.inr rfl)
      | some db' => exact .inl ⟨row, db', rfl, replaced, rfl⟩

@[simp] theorem insertSession_images {s : Auth.Session} {db' : Database}
    (inserted : db.insertSession s = some db') :
    db'.images = db.images ∧ db'.aliases = db.aliases := by
  unfold Database.insertSession at inserted
  split at inserted <;> cases inserted
  exact ⟨rfl, rfl⟩

@[simp] theorem insertToken_images {t : ApiToken.Row} {db' : Database}
    (inserted : db.insertToken t = some db') :
    db'.images = db.images ∧ db'.aliases = db.aliases := by
  unfold Database.insertToken at inserted
  split at inserted <;> cases inserted
  exact ⟨rfl, rfl⟩

/-- A statement that is carried out changes the tables in one of the listed ways. -/
theorem execute_change (db : Database) (q : Statement) :
    Change db q (db.execute q).1 (db.execute q).2 := by
  cases q with
  | createImage v =>
      dsimp only [Database.execute]
      rcases inserted_cases db .failed (db.insertImage (Database.storedImage v)) with ⟨db', stored, eq⟩ | eq
      · rw [eq]
        exact .created v db' stored
      · rw [eq]
        exact .none _ _ _ trivial rfl rfl
  | createImport v a =>
      dsimp only [Database.execute]
      cases stored : db.insertImage (Database.storedImage { v with uploadedVia := str "import" }) with
      | none => exact .none _ _ _ trivial rfl rfl
      | some db₁ =>
          dsimp only
          cases mapped : db₁.insertAlias { a with createdAt := ofUnix (unix a.createdAt) } with
          | none => exact .none _ _ _ trivial rfl rfl
          | some db₂ => exact .imported v a db₁ db₂ stored mapped
  | deleteImage id =>
      dsimp only [Database.execute]
      cases found : db.image? id with
      | none => exact .none _ _ _ trivial rfl rfl
      | some row => exact .erased id row found
  | updateVisibility id visibility =>
      dsimp only [Database.execute]
      rcases updateImage_cases db id fun row => { row with visibility := visibility } with
        ⟨row, db', found, replaced, eq⟩ | ⟨eq, -⟩ | eq
      · rw [eq]
        exact .shown id visibility row db' found replaced
      · rw [eq]
        exact .none _ _ _ trivial rfl rfl
      · rw [eq]
        exact .none _ _ _ trivial rfl rfl
  | updateContent v =>
      dsimp only [Database.execute]
      rcases updateImage_cases db v.id fun row => Database.withContent row v with
        ⟨row, db', found, replaced, eq⟩ | ⟨eq, -⟩ | eq
      · rw [eq]
        exact .replaced v row db' found replaced
      · rw [eq]
        exact .none _ _ _ trivial rfl rfl
      · rw [eq]
        exact .none _ _ _ trivial rfl rfl
  | createAlias a =>
      dsimp only [Database.execute]
      split
      · exact .none _ _ _ trivial rfl rfl
      rename_i present
      cases mapped : db.insertAlias { a with createdAt := ofUnix (unix a.createdAt) } with
      | none => exact .none _ _ _ trivial rfl rfl
      | some db' => exact .aliased a db' (by simpa [Option.isSome_iff_ne_none] using present) mapped
  | deleteAlias id =>
      dsimp only [Database.execute]
      cases found : row? Alias.id id db.aliases with
      | none => exact .none _ _ _ trivial rfl rfl
      | some row => exact .unaliased id row found
  | createSession s =>
      dsimp only [Database.execute]
      rcases inserted_cases db .failed (db.insertSession { s with
          expiresAt := ofUnix (unix s.expiresAt), createdAt := ofUnix (unix s.createdAt) }) with
        ⟨db', stored, eq⟩ | eq
      · rw [eq]
        exact .none _ _ _ trivial (insertSession_images stored).1 (insertSession_images stored).2
      · rw [eq]
        exact .none _ _ _ trivial rfl rfl
  | createToken t hash =>
      dsimp only [Database.execute]
      rcases inserted_cases db .failed (db.insertToken ⟨{ t with
          expiresAt := t.expiresAt.map fun t => ofUnix (unix t),
          createdAt := ofUnix (unix t.createdAt) }, hash⟩) with
        ⟨db', stored, eq⟩ | eq
      · rw [eq]
        exact .none _ _ _ trivial (insertToken_images stored).1 (insertToken_images stored).2
      · rw [eq]
        exact .none _ _ _ trivial rfl rfl
  | changePassword adminID passwordHash keepSessionHash now =>
      dsimp only [Database.execute]
      split
      · exact .none _ _ _ trivial rfl rfl
      · exact .none _ _ _ trivial rfl rfl
  | revokeToken id =>
      dsimp only [Database.execute]
      split
      · exact .none _ _ _ trivial rfl rfl
      · exact .none _ _ _ trivial rfl rfl
  | _ => exact .none _ _ _ trivial rfl rfl

theorem inserted_error {e e' : DatabaseError} {result : Option Database}
    (failed : (db.inserted e result).1 = .error e') : (db.inserted e result).2 = db := by
  rcases inserted_cases db e result with ⟨db', -, eq⟩ | eq
  · rw [eq] at failed
    cases failed
  · rw [eq]

theorem updateImage_error {id : GoString} {change : Image → Image} {e : DatabaseError}
    (failed : (db.updateImage id change).1 = .error e) : (db.updateImage id change).2 = db := by
  rcases updateImage_cases db id change with ⟨row, db', -, -, eq⟩ | ⟨eq, -⟩ | eq
  · rw [eq] at failed
    cases failed
  · rw [eq]
  · rw [eq]

/-- A statement that is carried out and answers with an error has changed nothing. -/
theorem execute_error {e : DatabaseError} (failed : (db.execute q).1 = .error e) :
    (db.execute q).2 = db := by
  cases q with
  | createImage v => exact inserted_error failed
  | createSession s => exact inserted_error failed
  | createToken t hash => exact inserted_error failed
  | updateVisibility id visibility => exact updateImage_error failed
  | updateContent v => exact updateImage_error failed
  | createImport v a =>
      dsimp only [Database.execute] at failed ⊢
      split at failed
      · rfl
      · split at failed
        · rfl
        · cases failed
  | createAlias a =>
      dsimp only [Database.execute] at failed ⊢
      by_cases absent : (db.image? a.imageID).isNone
      · rw [if_pos absent]
      · rw [if_neg absent] at failed ⊢
        split at failed
        · rfl
        · cases failed
  | deleteImage id =>
      dsimp only [Database.execute] at failed ⊢
      split at failed
      · rfl
      · cases failed
  | deleteAlias id =>
      dsimp only [Database.execute] at failed ⊢
      split at failed
      · rfl
      · cases failed
  | revokeToken id =>
      dsimp only [Database.execute] at failed ⊢
      split at failed
      · rfl
      · cases failed
  | changePassword adminID passwordHash keepSessionHash now =>
      dsimp only [Database.execute] at failed ⊢
      by_cases known : (db.admin.any fun a => a.id == adminID) = true
      · rw [if_pos known] at failed
        cases failed
      · rw [if_neg known]
  | updateProfile adminID displayName email now => cases failed
  | deleteSessionByHash hash => cases failed
  | deleteExpiredSessions now => cases failed
  | _ => rfl

theorem reading_failed (q : Statement) : Reading q (.error .failed) := by
  cases q <;> trivial

theorem statement_change {σ σ' : State} {c : Choice} {r : Except DatabaseError q.Value}
    (performed : σ.statement q c = some (r, σ')) : Change σ.database q r σ'.database := by
  unfold State.statement at performed
  split at performed
  · cases performed
    exact execute_change σ.database q
  · cases performed
    exact .none _ _ _ (reading_failed q) rfl rfl
  · split at performed
    · rename_i returning
      cases performed
      cases q with
      | deleteImage id =>
          dsimp only [Database.execute]
          cases found : σ.database.image? id with
          | none => exact .none _ _ _ trivial rfl rfl
          | some row => exact .erasedUnseen id row found
      | deleteAlias id =>
          dsimp only [Database.execute]
          cases found : row? Alias.id id σ.database.aliases with
          | none => exact .none _ _ _ trivial rfl rfl
          | some row => exact .unaliasedUnseen id row found
      | revokeToken id =>
          dsimp only [Database.execute]
          split
          · exact .none _ _ _ trivial rfl rfl
          · exact .none _ _ _ trivial rfl rfl
      | _ => cases returning
    · cases performed
  · cases performed

/-- What a statement that only reads leaves of the ledger. -/
theorem reading_frame {P : Platform} (l : Ledger) {r : Except DatabaseError q.Value}
    (reading : Reading q r) : ∃ row mapping erased unaliased progress records,
      l.recordStatement P q r =
        { l with
          row := row, mapping := mapping, erased := erased, unaliased := unaliased,
          progress := progress, records := records } := by
  unfold Ledger.recordStatement
  split
  case h_10 =>
    split
    · exact ⟨_, _, _, _, _, _, rfl⟩
    · exact ⟨_, _, _, _, _, _, rfl⟩
  case h_14 =>
    split
    · split
      · exact ⟨_, _, _, _, _, _, rfl⟩
      · exact ⟨_, _, _, _, _, _, rfl⟩
    · exact ⟨_, _, _, _, _, _, rfl⟩
  all_goals first
    | exact ⟨_, _, _, _, _, _, rfl⟩
    | exact absurd reading id

end Statements

section Tables

variable {db db' : Database}

theorem insertImage_some {v : Image} (inserted : db.insertImage v = some db') :
    db'.images = db.images ++ [v] ∧ db'.aliases = db.aliases ∧
      (∀ r ∈ db.images, r.id ≠ v.id) ∧ ∀ r ∈ db.images, r.storageKey ≠ v.storageKey := by
  unfold Database.insertImage at inserted
  split at inserted
  · rename_i valid
    cases inserted
    exact ⟨rfl, rfl, valid.2.1, valid.2.2.1⟩
  · cases inserted

theorem replaceImage_some {v : Image} (replaced : db.replaceImage v = some db') :
    db'.images = (db.images.map fun r => if r.id = v.id then v else r) ∧
      db'.aliases = db.aliases := by
  unfold Database.replaceImage at replaced
  split at replaced
  · cases replaced
    exact ⟨rfl, rfl⟩
  · cases replaced

theorem insertAlias_some {a : Alias} (inserted : db.insertAlias a = some db') :
    db'.images = db.images ∧ db'.aliases = db.aliases ++ [a] ∧
      (∀ r ∈ db.aliases, r.id ≠ a.id) ∧ (∀ r ∈ db.aliases, r.path ≠ a.path) ∧
      ∃ v ∈ db.images, v.id = a.imageID := by
  unfold Database.insertAlias at inserted
  split at inserted
  · rename_i valid
    cases inserted
    exact ⟨rfl, rfl, valid.1, valid.2.1, valid.2.2⟩
  · cases inserted

@[simp] theorem storedImage_id (v : Image) : (Database.storedImage v).id = v.id := by
  simp only [Database.storedImage]

@[simp] theorem storedImage_storageKey (v : Image) :
    (Database.storedImage v).storageKey = v.storageKey := by
  simp only [Database.storedImage]

@[simp] theorem withContent_id (row v : Image) : (Database.withContent row v).id = row.id := by
  simp only [Database.withContent]

@[simp] theorem withContent_storageKey (row v : Image) :
    (Database.withContent row v).storageKey = v.storageKey := by
  simp only [Database.withContent]

theorem image?_some {id : GoString} {v : Image} (found : db.image? id = some v) :
    v ∈ db.images ∧ v.id = id := row?_some found

theorem image?_of_mem {v : Image} (member : v ∈ db.images) : db.image? v.id = some v :=
  row?_eq_some db.imageIDs member

end Tables

section Files

variable {f : Files} {folder : Folder} {key path : GoString} {entry : Entry}

@[simp] theorem put_same (f : Files) (folder : Folder) (key : GoString) (entry : Entry) :
    (f.put folder key entry).directory folder = (f.directory folder).insert key entry := by
  simp [Files.put]

theorem put_other {other : Folder} (ne : other ≠ folder) :
    (f.put folder key entry).directory other = f.directory other := by
  simp [Files.put, Function.update_of_ne ne]

@[simp] theorem drop_same (f : Files) (folder : Folder) (key : GoString) :
    (f.drop folder key).directory folder = (f.directory folder).erase key := by
  simp [Files.drop]

theorem drop_other {other : Folder} (ne : other ≠ folder) :
    (f.drop folder key).directory other = f.directory other := by
  simp [Files.drop, Function.update_of_ne ne]

/-- The data directory after a rename. -/
def renamed (f : Files) (path : GoString) (folder : Folder) (key : GoString) (entry : Entry) :
    Files :=
  let moved := (f.drop .temporary path).put folder key entry
  if folder = .images then { moved with lastWrite := moved.lastWrite.insert key entry.modifiedAt }
  else moved

theorem renamed_directory (f : Files) (path : GoString) (folder : Folder) (key : GoString)
    (entry : Entry) : (renamed f path folder key entry).directory =
      ((f.drop .temporary path).put folder key entry).directory := by
  unfold renamed
  dsimp only
  split <;> rfl

theorem renamed_handedOut (f : Files) (path : GoString) (folder : Folder) (key : GoString)
    (entry : Entry) : (renamed f path folder key entry).handedOut = f.handedOut := by
  unfold renamed
  dsimp only
  split <;> rfl

/-- The outcomes that leave the three directories alone. -/
def Kept : (b : FileAction) → b.Response → Prop
  | .createTemporary, .ok _ => False
  | .rename _ _ _, .ok _ => False
  | .remove _ _, .ok _ => False
  | _, _ => True

inductive Filed (f : Files) (now : Time) : (b : FileAction) → b.Response → Files → Prop
  | created (path : GoString) : path ∉ f.handedOut → path ∉ f.temporary →
      Filed f now .createTemporary (.ok path)
        { f.put .temporary path ⟨.regular [], now⟩ with handedOut := insert path f.handedOut }
  | wrote (path : GoString) (content left : Bytes) (r : Except Error Unit) :
      (r = .ok () → left = content) →
      Filed f now (.write path content) r (f.put .temporary path ⟨.regular left, now⟩)
  | transformed (input : FileRef) (path : GoString) (metadata : Processor.Metadata)
      (options : Processor.Options) (plan : Processor.Plan) (r : Except Processor.Error Unit)
      (left : Option Bytes) :
      Filed f now (.transform input path metadata options plan) r
        (left.elim (f.drop .temporary path) fun content =>
          f.put .temporary path ⟨.regular content, now⟩)
  | thumbnailed (input : FileRef) (path : GoString) (r : Except Processor.Error Unit)
      (left : Option Bytes) :
      Filed f now (.thumbnail input path) r
        (left.elim (f.drop .temporary path) fun content =>
          f.put .temporary path ⟨.regular content, now⟩)
  | renamed (path : GoString) (folder : Folder) (key : GoString) (entry : Entry) :
      f.temporary.lookup path = some entry →
      Filed f now (.rename path folder key) (.ok ()) (renamed f path folder key entry)
  | removed (folder : Folder) (key : GoString) :
      Filed f now (.remove folder key) (.ok ()) (f.drop folder key)
  | none (b : FileAction) (r : b.Response) : Kept b r → Filed f now b r f

theorem kept_failed (b : FileAction) : Kept b b.failed := by
  cases b <;> trivial

theorem file_effect {P : Platform} {f f' : Files} {now : Time} {b : FileAction} {r : b.Response}
    {c : Choice} (performed : f.perform P now b c = some (r, f')) : Filed f now b r f' := by
  unfold Files.perform at performed
  split at performed
  · -- createTemporary
    split at performed
    · rename_i new
      cases performed
      exact .created _ new.1 new.2
    · cases performed
  · cases performed
    exact .none _ _ trivial
  · -- write
    split at performed
    · cases performed
      exact .none _ _ trivial
    · cases performed
      exact .wrote _ _ _ _ fun _ => rfl
  · split at performed
    · cases performed
      exact .none _ _ trivial
    · cases performed
      exact .wrote _ _ _ _ (by simp)
  · split at performed
    · cases performed
      exact .none _ _ trivial
    · cases performed
      exact .none _ _ trivial
  · -- transform
    unfold Files.process at performed
    split at performed
    · cases performed
      rename_i left
      cases left with
      | none => exact .transformed _ _ _ _ _ _ none
      | some content => exact .transformed _ _ _ _ _ _ (some content)
    · cases performed
  · unfold Files.process at performed
    split at performed
    · cases performed
      rename_i left
      cases left with
      | none => exact .thumbnailed _ _ _ none
      | some content => exact .thumbnailed _ _ _ (some content)
    · cases performed
  · -- inspect
    split at performed
    · cases performed
      exact .none _ _ trivial
    · cases performed
      exact .none _ _ trivial
    · cases performed
      exact .none _ _ trivial
  · split at performed
    · cases performed
      exact .none _ _ trivial
    · cases performed
      exact .none _ _ trivial
  · cases performed
    exact .none _ _ trivial
  · -- rename
    unfold Files.renameTo at performed
    split at performed
    · cases performed
      exact .none _ _ trivial
    · split at performed
      · cases performed
        exact .none _ _ trivial
      · rename_i there _
        cases performed
        exact .renamed _ _ _ _ there
      · cases performed
        exact .none _ _ trivial
  · cases performed
    exact .removed _ _
  · cases performed
    exact .none _ _ trivial
  · cases performed
    exact .none _ _ trivial
  · cases performed
    exact .none _ _ trivial
  · cases performed
    exact .none _ _ (kept_failed _)
  · cases performed

end Files

end ImageSilo.Publication
