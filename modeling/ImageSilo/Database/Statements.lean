import ImageSilo.Auth.Model
import Mathlib.Algebra.Ring.Int.Defs

/-! The tables of the schema with their constraints as fields, and the statements of the repositories,
each of which is atomic. -/
namespace ImageSilo

open Go Tables

/-- The checks of the columns of `images`. -/
def Image.admissible (v : Image) : Bool :=
  [str "image/jpeg", str "image/png", str "image/webp", str "image/gif"].contains v.mimeType &&
    0 < v.width && 0 < v.height && 0 < v.sourceSize && 0 < v.storedSize &&
    (v.visibility == .isPublic || v.visibility == .isPrivate) &&
    [str "admin", str "api_token", str "import"].contains v.uploadedVia

structure ApiToken.Row where
  token : ApiToken.Token
  hash : Digest

structure Database where
  images : List Image
  aliases : List Alias
  admin : Option Auth.Admin
  sessions : List Auth.Session
  tokens : List ApiToken.Row
  imageIDs : Unique Image.id images
  storageKeys : Unique Image.storageKey images
  checked : ∀ v ∈ images, v.admissible = true
  aliasIDs : Unique Alias.id aliases
  aliasPaths : Unique Alias.path aliases
  aliasImages : ∀ a ∈ aliases, ∃ v ∈ images, v.id = a.imageID
  sessionIDs : Unique Auth.Session.id sessions
  sessionHashes : Unique Auth.Session.tokenHash sessions
  sessionAdmins : ∀ s ∈ sessions, ∃ a ∈ admin, a.id = s.adminID
  tokenIDs : Unique (fun r : ApiToken.Row => r.token.id) tokens
  tokenHashes : Unique ApiToken.Row.hash tokens

namespace Database

def image? (db : Database) (id : GoString) : Option Image := row? Image.id id db.images

def alias? (db : Database) (path : GoString) : Option Alias := row? Alias.path path db.aliases

/-- A row as it is read back: times at whole seconds. `UpdatedAt` falls back on `CreatedAt` when it
is the zero time. -/
def storedImage (v : Image) : Image :=
  let updatedAt := if v.updatedAt = ofUnix (-62135596800) then v.createdAt else v.updatedAt
  { v with createdAt := ofUnix (unix v.createdAt), updatedAt := ofUnix (unix updatedAt) }

def insertImage (db : Database) (v : Image) : Option Database :=
  if valid : v.admissible = true ∧ (∀ r ∈ db.images, r.id ≠ v.id) ∧
      (∀ r ∈ db.images, r.storageKey ≠ v.storageKey) ∧
      (∀ t ∈ v.uploadedByAPITokenID, ∃ r ∈ db.tokens, r.token.id = t) then
    some { db with
      images := db.images ++ [v]
      imageIDs := db.imageIDs.insert valid.2.1
      storageKeys := db.storageKeys.insert valid.2.2.1
      checked := by
        intro r member
        rcases List.mem_append.mp member with old | new
        · exact db.checked r old
        · obtain rfl : r = v := by simpa using new
          exact valid.1
      aliasImages := by
        intro a member
        obtain ⟨r, row, same⟩ := db.aliasImages a member
        exact ⟨r, List.mem_append_left _ row, same⟩ }
  else none

/-- The foreign key of the aliases cascades. -/
def removeImage (db : Database) (id : GoString) : Database :=
  { db with
    images := db.images.filter fun r => r.id ≠ id
    aliases := db.aliases.filter fun a => a.imageID ≠ id
    imageIDs := db.imageIDs.filter _
    storageKeys := db.storageKeys.filter _
    checked := fun r member => db.checked r (List.mem_of_mem_filter member)
    aliasIDs := db.aliasIDs.filter _
    aliasPaths := db.aliasPaths.filter _
    aliasImages := by
      intro a member
      obtain ⟨old, kept⟩ := List.mem_filter.mp member
      obtain ⟨r, row, same⟩ := db.aliasImages a old
      exact ⟨r, List.mem_filter.mpr ⟨row, by simpa [same] using kept⟩, same⟩ }

/-- Replaces the row of one image by another row of the same image. -/
def replaceImage (db : Database) (v : Image) : Option Database :=
  if valid : v.admissible = true ∧
      ∀ r ∈ db.images, r.id ≠ v.id → r.storageKey ≠ v.storageKey then
    some { db with
      images := db.images.map fun r => if r.id = v.id then v else r
      imageIDs := db.imageIDs.update fun r _ => by
        split
        · rename_i same
          exact same.symm
        · rfl
      storageKeys := db.storageKeys.replace (d := Image.id) (i := v.id) (k := v.storageKey)
        db.imageIDs (fun r _ same => by rw [if_pos same]) (fun r _ other => by rw [if_neg other])
        valid.2
      checked := by
        intro r member
        obtain ⟨old, row, rfl⟩ := List.mem_map.mp member
        split
        · exact valid.1
        · exact db.checked old row
      aliasImages := by
        intro a member
        obtain ⟨r, row, same⟩ := db.aliasImages a member
        refine ⟨if r.id = v.id then v else r, List.mem_map_of_mem row, ?_⟩
        split
        · rename_i eq
          exact eq.symm.trans same
        · exact same }
  else none

def insertAlias (db : Database) (a : Alias) : Option Database :=
  if valid : (∀ r ∈ db.aliases, r.id ≠ a.id) ∧ (∀ r ∈ db.aliases, r.path ≠ a.path) ∧
      ∃ v ∈ db.images, v.id = a.imageID then
    some { db with
      aliases := db.aliases ++ [a]
      aliasIDs := db.aliasIDs.insert valid.1
      aliasPaths := db.aliasPaths.insert valid.2.1
      aliasImages := by
        intro r member
        rcases List.mem_append.mp member with old | new
        · exact db.aliasImages r old
        · obtain rfl : r = a := by simpa using new
          exact valid.2.2 }
  else none

def removeAlias (db : Database) (id : GoString) : Database :=
  { db with
    aliases := db.aliases.filter fun a => a.id ≠ id
    aliasIDs := db.aliasIDs.filter _
    aliasPaths := db.aliasPaths.filter _
    aliasImages := fun a member => db.aliasImages a (List.mem_of_mem_filter member) }

def insertSession (db : Database) (s : Auth.Session) : Option Database :=
  if valid : (∀ r ∈ db.sessions, r.id ≠ s.id) ∧ (∀ r ∈ db.sessions, r.tokenHash ≠ s.tokenHash) ∧
      ∃ a ∈ db.admin, a.id = s.adminID then
    some { db with
      sessions := db.sessions ++ [s]
      sessionIDs := db.sessionIDs.insert valid.1
      sessionHashes := db.sessionHashes.insert valid.2.1
      sessionAdmins := by
        intro r member
        rcases List.mem_append.mp member with old | new
        · exact db.sessionAdmins r old
        · obtain rfl : r = s := by simpa using new
          exact valid.2.2 }
  else none

def removeSessions (db : Database) (gone : Auth.Session → Bool) : Database :=
  { db with
    sessions := db.sessions.filter fun s => !gone s
    sessionIDs := db.sessionIDs.filter _
    sessionHashes := db.sessionHashes.filter _
    sessionAdmins := fun s member => db.sessionAdmins s (List.mem_of_mem_filter member) }

/-- Updates the administrator's row when it has this id. -/
def updateAdmin (db : Database) (id : GoString) (change : Auth.Admin → Auth.Admin)
    (same : ∀ a, (change a).id = a.id) : Database :=
  { db with
    admin := db.admin.map fun a => if a.id = id then change a else a
    sessionAdmins := by
      intro s member
      obtain ⟨a, row, eq⟩ := db.sessionAdmins s member
      refine ⟨if a.id = id then change a else a, ?_, ?_⟩
      · rw [Option.mem_def] at row ⊢
        rw [row]
        rfl
      · split
        · exact (same a).trans eq
        · exact eq }

def insertToken (db : Database) (r : ApiToken.Row) : Option Database :=
  if valid : (∀ s ∈ db.tokens, s.token.id ≠ r.token.id) ∧ ∀ s ∈ db.tokens, s.hash ≠ r.hash then
    some { db with
      tokens := db.tokens ++ [r]
      tokenIDs := db.tokenIDs.insert valid.1
      tokenHashes := db.tokenHashes.insert valid.2 }
  else none

def revokeToken (db : Database) (id : GoString) : Database :=
  { db with
    tokens := db.tokens.map fun r =>
      if r.token.id = id then { r with token := { r.token with isActive := false } } else r
    tokenIDs := db.tokenIDs.update fun r _ => by split <;> rfl
    tokenHashes := db.tokenHashes.update fun r _ => by split <;> rfl }

end Database

/-- What `Build` selects of an image. `createdAt` is `CASE WHEN updated_at > 0 THEN updated_at ELSE
created_at END`. -/
structure DeliveryRow where
  id : GoString
  storageKey : GoString
  mimeType : GoString
  hash : Digest
  size : Int
  createdAt : Int
  visibility : Visibility
  originalName : GoString

def deliveryRow (v : Image) : DeliveryRow :=
  { id := v.id
    storageKey := v.storageKey
    mimeType := v.mimeType
    hash := v.storedSHA256
    size := v.storedSize
    createdAt := if 0 < unix v.updatedAt then unix v.updatedAt else unix v.createdAt
    visibility := v.visibility
    originalName := v.originalName }

structure ImageFileRecord where
  id : GoString
  storageKey : GoString
  storedSize : Int

inductive Statement
  | createImage (value : Image)
  | getImage (id : GoString)
  | deleteImage (id : GoString)
  | updateVisibility (id : GoString) (visibility : Visibility)
  | updateContent (value : Image)
  | createAlias (value : Alias)
  | aliasPathByID (id : GoString)
  | deleteAlias (id : GoString)
  | aliasExists (path : GoString)
  | createImport (value : Image) (mapping : Alias)
  | deliveryRows
  | aliasRows
  | imageFiles
  | imageTotals
  | aliasCount
  | activeSessionCount (now : Time)
  | activeTokenCount (now : Time)
  | findAdminByEmail (email : GoString)
  | findAdminByID (id : GoString)
  | updateProfile (adminID displayName email : GoString) (now : Time)
  | createSession (session : Auth.Session)
  | deleteSessionByHash (hash : Digest)
  | deleteExpiredSessions (now : Time)
  | changePassword (adminID passwordHash : GoString) (keepSessionHash : Digest) (now : Time)
  | listActiveSessions (now : Time)
  | createToken (token : ApiToken.Token) (hash : Digest)
  | revokeToken (id : GoString)
  | listActiveTokens (now : Time)

namespace Statement

abbrev Value : Statement → Type
  | createImage _ => Unit
  | getImage _ => Image
  | deleteImage _ => Image
  | updateVisibility _ _ => Bool
  | updateContent _ => Bool
  | createAlias _ => Bool
  | aliasPathByID _ => GoString
  | deleteAlias _ => GoString
  | aliasExists _ => Bool
  | createImport _ _ => Unit
  | deliveryRows => List DeliveryRow
  | aliasRows => List (GoString × GoString)
  | imageFiles => List ImageFileRecord
  | imageTotals => Int × Int
  | aliasCount => Int
  | activeSessionCount _ => Int
  | activeTokenCount _ => Int
  | findAdminByEmail _ => Auth.Admin
  | findAdminByID _ => Auth.Admin
  | updateProfile _ _ _ _ => Bool
  | createSession _ => Unit
  | deleteSessionByHash _ => Unit
  | deleteExpiredSessions _ => Int
  | changePassword _ _ _ _ => Unit
  | listActiveSessions _ => List (Digest × Auth.SessionIdentity)
  | createToken _ _ => Unit
  | revokeToken _ => Digest
  | listActiveTokens _ => List (Digest × ApiToken.Identity)

/-- The queries that are mutation and query in one. -/
def isReturning : Statement → Bool
  | deleteImage _ | deleteAlias _ | revokeToken _ => true
  | _ => false

end Statement

namespace Database

/-- An inserting statement: it either applies or fails with `e`. -/
def inserted (db : Database) (e : DatabaseError) (result : Option Database) :
    Except DatabaseError Unit × Database :=
  match result with
  | some db' => (.ok (), db')
  | none => (.error e, db)

def orNoRows {α : Type} : Option α → Except DatabaseError α
  | some v => .ok v
  | none => .error .noRows

/-- `ORDER BY` on a text column. -/
def orderBy {α : Type} (column : α → GoString) (rows : List α) : List α :=
  rows.insertionSort fun r s => column r ≤ column s

/-- The columns that a change of content writes, on the row as it stands. -/
def withContent (row value : Image) : Image :=
  { row with
    originalName := value.originalName
    storageKey := value.storageKey
    extension := value.extension
    mimeType := value.mimeType
    width := value.width
    height := value.height
    storedSize := value.storedSize
    storedSHA256 := value.storedSHA256
    processingSummary := value.processingSummary
    updatedAt := ofUnix (unix value.updatedAt) }

/-- Changes the row of image `id`, if there is one; the answer tells whether there was. -/
def updateImage (db : Database) (id : GoString) (change : Image → Image) :
    Except DatabaseError Bool × Database :=
  match db.image? id with
  | none => (.ok false, db)
  | some row =>
      match db.replaceImage (change row) with
      | none => (.error .failed, db)
      | some db' => (.ok true, db')

def identityOf (s : Auth.Session) (a : Auth.Admin) : Auth.SessionIdentity :=
  { sessionID := s.id
    adminID := s.adminID
    displayName := a.displayName
    email := a.email
    csrfHash := s.csrfHash
    expiresAt := s.expiresAt }

/-- The join of the sessions with the administrator they belong to. -/
def activeSessions (db : Database) (now : Time) : List (Digest × Auth.SessionIdentity) :=
  (db.sessions.filter fun s => unix now < unix s.expiresAt).filterMap fun s =>
    (db.admin.filter fun a => a.id == s.adminID).map fun a => (s.tokenHash, identityOf s a)

/-- A token is unexpired at the whole second of `now`. -/
def tokenUnexpired (now : Time) (r : ApiToken.Row) : Bool :=
  r.token.expiresAt.all fun t => unix now < unix t

def activeTokens (db : Database) (now : Time) : List ApiToken.Row :=
  db.tokens.filter fun r => r.token.isActive && tokenUnexpired now r

def execute (db : Database) : (q : Statement) → Except DatabaseError q.Value × Database
  | .createImage value => db.inserted .failed (db.insertImage (storedImage value))
  | .getImage id => (orNoRows (db.image? id), db)
  | .deleteImage id =>
      match db.image? id with
      | none => (.error .noRows, db)
      | some row => (.ok row, db.removeImage id)
  | .updateVisibility id visibility =>
      db.updateImage id fun row => { row with visibility := visibility }
  | .updateContent value => db.updateImage value.id fun row => withContent row value
  | .createAlias value =>
      -- INSERT ... SELECT from images: without the image nothing is inserted
      if (db.image? value.imageID).isNone then (.ok false, db)
      else
        match db.insertAlias { value with createdAt := ofUnix (unix value.createdAt) } with
        | none => (.error .unique, db)
        | some db' => (.ok true, db')
  | .aliasPathByID id => (orNoRows ((row? Alias.id id db.aliases).map Alias.path), db)
  | .deleteAlias id =>
      match row? Alias.id id db.aliases with
      | none => (.error .noRows, db)
      | some row => (.ok row.path, db.removeAlias id)
  | .aliasExists path => (.ok (db.alias? path).isSome, db)
  | .createImport value mapping =>
      match db.insertImage (storedImage { value with uploadedVia := str "import" }) with
      | none => (.error .failed, db)
      | some db' =>
          match db'.insertAlias { mapping with createdAt := ofUnix (unix mapping.createdAt) } with
          | none => (.error .unique, db)
          | some db'' => (.ok (), db'')
  | .deliveryRows => (.ok ((orderBy Image.id db.images).map deliveryRow), db)
  | .aliasRows => (.ok ((orderBy Alias.path db.aliases).map fun a => (a.path, a.imageID)), db)
  | .imageFiles =>
      (.ok ((orderBy Image.id db.images).map fun v => ⟨v.id, v.storageKey, v.storedSize⟩), db)
  | .imageTotals => (.ok (db.images.length, (db.images.map Image.storedSize).sum), db)
  | .aliasCount => (.ok db.aliases.length, db)
  | .activeSessionCount now =>
      (.ok (db.sessions.countP fun s => unix now < unix s.expiresAt), db)
  | .activeTokenCount now => (.ok (db.activeTokens now).length, db)
  | .findAdminByEmail email => (orNoRows (db.admin.filter fun a => a.email == email), db)
  | .findAdminByID id => (orNoRows (db.admin.filter fun a => a.id == id), db)
  | .updateProfile adminID displayName email now =>
      (.ok (db.admin.any fun a => a.id == adminID),
        db.updateAdmin adminID (fun a =>
          { a with displayName := displayName, email := email, updatedAt := ofUnix (unix now) })
          fun _ => rfl)
  | .createSession session =>
      db.inserted .failed (db.insertSession
        { session with
          expiresAt := ofUnix (unix session.expiresAt)
          createdAt := ofUnix (unix session.createdAt) })
  | .deleteSessionByHash hash => (.ok (), db.removeSessions fun s => s.tokenHash == hash)
  | .deleteExpiredSessions now =>
      (.ok (db.sessions.countP fun s => unix s.expiresAt ≤ unix now),
        db.removeSessions fun s => unix s.expiresAt ≤ unix now)
  | .changePassword adminID passwordHash keepSessionHash now =>
      if db.admin.any fun a => a.id == adminID then
        (.ok (),
          (db.updateAdmin adminID (fun a =>
            { a with passwordHash := passwordHash, updatedAt := ofUnix (unix now) })
            fun _ => rfl).removeSessions fun s =>
              s.adminID == adminID && s.tokenHash != keepSessionHash)
      else (.error .failed, db)
  | .listActiveSessions now => (.ok (db.activeSessions now), db)
  | .createToken token hash =>
      db.inserted .failed (db.insertToken
        ⟨{ token with
            expiresAt := token.expiresAt.map fun t => ofUnix (unix t)
            createdAt := ofUnix (unix token.createdAt) }, hash⟩)
  | .revokeToken id =>
      match db.tokens.find? fun r => r.token.id == id && r.token.isActive with
      | none => (.error .noRows, db)
      | some row => (.ok row.hash, db.revokeToken id)
  | .listActiveTokens now =>
      (.ok ((db.activeTokens now).map fun r => (r.hash, ApiToken.identityFromToken r.token)), db)

end Database

end ImageSilo
