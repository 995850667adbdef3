import ImageSilo.System.Requests

/-! The discipline of the image operations: what a call holds, owes, has placed and has read. -/
namespace ImageSilo.Publication

open Go Concurrent Storage

/-- The call's side of the rebuild lock. -/
inductive Hold
  | free
  | shared
  | waiting
  | exclusive
  deriving DecidableEq

/-- What is known of the content of a file. -/
structure Facts where
  size : Option Int
  digest : Option Digest
  mime : Option GoString

def Facts.nothing : Facts := ⟨none, none, none⟩

def Facts.holdOf (P : Platform) (f : Facts) (content : Bytes) : Prop :=
  (∀ s ∈ f.size, s = content.length) ∧ (∀ d ∈ f.digest, d = P.sha256 content) ∧
    ∀ m ∈ f.mime, Processor.contentMIME content = some m

def Facts.describe (f : Facts) (v : Image) : Prop :=
  f.size = some v.storedSize ∧ f.digest = some v.storedSHA256 ∧ f.mime = some v.mimeType

/-- How far a rebuild has come. -/
inductive Progress
  | idle
  | rows (remaining : List DeliveryRow) (loading : Delivery.Loading)
  | ready (loading : Delivery.Loading)

structure Ledger where
  request : Request
  image : Option GoString
  path : Option GoString
  hold : Hold
  owes : List Delivery.IndexStep
  pending : Finset GoString
  temps : GoString → Option Facts
  placed : Option (GoString × Facts)
  thumb : Option GoString
  inserted : Option Image
  aliased : Option Alias
  dead : Option GoString
  row : Option Image
  mapping : Option (GoString × GoString)
  changed : Option (GoString × Visibility)
  erased : Option GoString
  unaliased : Option GoString
  progress : Progress
  looked : Option (Option Delivery.Target)
  admitted : Bool
  opened : Option (Except OpenError Bytes)
  time : Option Time
  records : Option (List ImageFileRecord)
  entries : Option (List FileEntry)

def Ledger.begin (request : Request) : Ledger :=
  { request := request, image := none, path := none, hold := .free, owes := [], pending := ∅,
    temps := fun _ => none, placed := none, thumb := none, inserted := none, aliased := none,
    dead := none, row := none, mapping := none, changed := none, erased := none, unaliased := none,
    progress := .idle, looked := none, admitted := false, opened := none, time := none,
    records := none, entries := none }

def Ledger.know (l : Ledger) (path : GoString) (f : Facts) : Ledger :=
  { l with temps := Function.update l.temps path (some f) }

/-- An old file that the maintenance has listed and that none of the rows it has read refers to. -/
def Ledger.condemns (l : Ledger) (key : GoString) : Prop :=
  ∃ age now records entries, l.request = .daily age ∧ l.time = some now ∧
    l.records = some records ∧ l.entries = some entries ∧
    (∃ e ∈ entries, e.key = key ∧ e.modifiedAt ≤ now - effectiveAge age) ∧
    ∀ r ∈ records, r.storageKey ≠ key

variable (P : Platform)

def Ledger.allows (l : Ledger) : Statement → Prop
  | .createImage v =>
      l.hold = .shared ∧ l.image = some v.id ∧ v.id = v.storageKey ∧ v.createdAt = v.updatedAt ∧
        ∃ f, l.placed = some (v.storageKey, f) ∧ f.describe v
  | .createImport v a =>
      l.hold = .shared ∧ l.image = some v.id ∧ v.id = v.storageKey ∧ v.createdAt = v.updatedAt ∧
        (∃ f, l.placed = some (v.storageKey, f) ∧ f.describe v) ∧ l.path = some a.path ∧
        a.imageID = v.id ∧ a.id ∈ l.pending ∧ Delivery.normalizeAliasPath P a.path = .ok a.path
  | .deleteImage id =>
      l.hold = .shared ∧ l.image = some id ∧ l.row = none ∧ l.request = .deleteImage id
  | .updateVisibility id visibility =>
      l.hold = .shared ∧ l.image = some id ∧ l.request = .changeVisibility id visibility
  | .updateContent v =>
      l.hold = .shared ∧ l.image = some v.id ∧ l.time = some v.updatedAt ∧
        (∃ old, l.row = some old ∧ old.id = v.id ∧ v.visibility = old.visibility ∧
          ∃ options, l.request = .convertToWebP v.id options) ∧
        ∃ f, l.placed = some (v.storageKey, f) ∧ f.describe v
  | .createAlias a =>
      l.hold = .shared ∧ l.image = some a.imageID ∧ l.path = some a.path ∧ a.id ∈ l.pending ∧
        Delivery.normalizeAliasPath P a.path = .ok a.path
  | .deleteAlias id =>
      l.hold = .shared ∧
        ∃ path, l.path = some path ∧ l.mapping = some (id, path) ∧ l.request = .deleteAlias id
  | .deliveryRows => l.hold = .exclusive
  | .aliasRows => l.hold = .exclusive
  | _ => True

def Ledger.allowsFile (l : Ledger) : FileAction → Prop
  | .write path _ => l.temps path ≠ none
  | .transform _ path _ _ _ => l.temps path ≠ none
  | .thumbnail _ path => l.temps path ≠ none
  | .rename path .images key =>
      l.temps path ≠ none ∧ key ∈ l.pending ∧ l.placed = none ∧ validKey key = true
  | .rename path .thumbnails id =>
      l.temps path ≠ none ∧ ((∃ f, l.placed = some (id, f)) ∨ l.image = some id)
  | .rename _ .temporary _ => False
  | .remove .images key =>
      (∃ f, l.placed = some (key, f)) ∨ l.dead = some key ∨ l.condemns key
  | .remove .thumbnails id =>
      l.thumb = some id ∨ l.image = some id ∨ ∃ age, l.request = .daily age
  | .remove .temporary path => l.temps path ≠ none ∨ ∃ age, l.request = .daily age
  | .openImage key =>
      (∃ row rest L, l.progress = .rows (row :: rest) L ∧ row.storageKey = key) ∨
        (l.progress = .idle ∧ ∃ target, l.looked = some (some target) ∧ target.storageKey = key ∧
          (target.visibility = .isPrivate → l.admitted = true))
  | _ => True

def Ledger.allowsSync (l : Ledger) : Sync → Prop
  | .lockImage _ => l.image = none ∧ l.path = none ∧ l.hold = .free
  | .unlockImage id => l.image = some id ∧ l.path = none ∧ l.hold = .free
  | .lockAlias _ => l.path = none ∧ l.hold = .free
  | .unlockAlias path => l.path = some path ∧ l.hold = .free
  | .beginChange => l.hold = .free
  | .endChange => l.hold = .shared
  | .announceRebuild => l.image = none ∧ l.path = none ∧ l.hold = .free
  | .beginRebuild => l.hold = .waiting
  | .endRebuild => l.hold = .exclusive
  | _ => True

def Ledger.permits (l : Ledger) : Action → Prop
  | .index s =>
      (∃ rest, l.owes = s :: rest) ∨
        (l.owes = [] ∧ ∃ L, l.progress = .ready L ∧ s = .replaceAll L.snapshot)
  | .sync s => l.owes = [] ∧ l.allowsSync s
  | .statement q => l.owes = [] ∧ l.allows P q
  | .file a => l.owes = [] ∧ l.allowsFile a
  | .getTarget id => l.owes = [] ∧ ∃ r, l.request = .serve r ∧ r.lookup P = some (.byID id)
  | .getAlias path => l.owes = [] ∧ ∃ r, l.request = .serve r ∧ r.lookup P = some (.byAlias path)
  | _ => l.owes = []

/-- What the shared state guarantees of an answer. -/
def Ledger.reports (l : Ledger) : (a : Action) → Response a → Prop
  | .statement (.getImage id), .ok v => v.id = id
  | .statement (.deleteAlias _), .ok path => l.path = some path
  | .newUUID, .ok id => id ∉ l.pending
  | .file .createTemporary, .ok path => l.temps path = none
  | _, _ => True

def Ledger.recordSync (l : Ledger) : Sync → Ledger
  | .lockImage id => { l with image := some id }
  | .unlockImage _ => { l with image := none, row := none }
  | .lockAlias path => { l with path := some path }
  | .unlockAlias _ => { l with path := none }
  | .beginChange => { l with hold := .shared }
  | .endChange => { l with hold := .free }
  | .announceRebuild => { l with hold := .waiting }
  | .beginRebuild => { l with hold := .exclusive }
  | .endRebuild => { l with hold := .free, progress := .idle }
  | _ => l

def Ledger.recordStatement (l : Ledger) : (q : Statement) → Except DatabaseError q.Value → Ledger
  | .createImage v, .ok _ =>
      { l with
        owes := [.add v.id (Delivery.targetOf v)], placed := none, thumb := none,
        inserted := some v }
  | .createImport v a, .ok _ =>
      { l with
        owes := [.add v.id (Delivery.targetOf v), .addAlias a.path v.id], placed := none,
        thumb := none, inserted := some v, aliased := some a, pending := l.pending.erase a.id }
  | .deleteImage id, .ok v =>
      { l with owes := [.removeImage id], dead := some v.storageKey, row := none }
  | .deleteImage id, .error .noRows => { l with erased := some id }
  | .updateVisibility id visibility, .ok true =>
      { l with
        owes := [.updateVisibility id visibility], changed := some (id, visibility), row := none }
  | .updateContent v, .ok true =>
      { l with
        owes := [.add v.id (Delivery.targetOf v)], placed := none,
        dead := l.row.map Image.storageKey, row := none }
  | .createAlias a, .ok true =>
      { l with
        owes := [.addAlias a.path a.imageID], aliased := some a, pending := l.pending.erase a.id }
  | .deleteAlias _, .ok path => { l with owes := [.removeAlias path] }
  | .deleteAlias id, .error .noRows => { l with unaliased := some id }
  | .getImage id, .ok v => if l.image = some id then { l with row := some v } else l
  | .aliasPathByID id, .ok path => { l with mapping := some (id, path) }
  | .aliasPathByID id, .error .noRows => { l with unaliased := some id }
  | .deliveryRows, .ok rows => { l with progress := .rows rows Delivery.Loading.start }
  | .aliasRows, .ok rows =>
      match l.progress with
      | .rows [] L =>
          match L.addAliases P rows with
          | .ok L' => { l with progress := .ready L' }
          | .error _ => { l with progress := .idle }
      | _ => l
  | .imageFiles, .ok records => { l with records := some records }
  | _, _ => l

def Ledger.recordIndex (l : Ledger) (s : Delivery.IndexStep) : Ledger :=
  match l.owes, s with
  | _ :: rest, .removeImage id => { l with owes := rest, erased := some id }
  | _ :: rest, .removeAlias _ => { l with owes := rest, unaliased := l.mapping.map Prod.fst }
  | _ :: rest, _ => { l with owes := rest }
  | [], _ => { l with progress := .idle }

def Ledger.recordFile (l : Ledger) : (a : FileAction) → a.Response → Ledger
  | .createTemporary, .ok path => l.know path .nothing
  | .write path content, .ok _ => l.know path ⟨some content.length, some (P.sha256 content), none⟩
  | .write path _, .error _ => l.know path .nothing
  | .transform _ path _ _ _, _ => l.know path .nothing
  | .thumbnail _ path, _ => l.know path .nothing
  | .inspect (.temporary path) _, .ok metadata =>
      match l.temps path with
      | some f => l.know path { f with mime := some metadata.mimeType }
      | none => l
  | .hash path, .ok (size, digest) =>
      match l.temps path with
      | some f => l.know path { f with size := some size, digest := some digest }
      | none => l
  | .rename path .images key, .ok _ =>
      { l.know path .nothing with
        placed := (l.temps path).map fun f => (key, f), pending := l.pending.erase key }
  | .rename path .thumbnails id, .ok _ => { l.know path .nothing with thumb := some id }
  | .remove .images key, _ =>
      if (l.placed.map Prod.fst) = some key then { l with placed := none } else l
  | .remove .thumbnails id, _ => if l.thumb = some id then { l with thumb := none } else l
  | .openImage _, r =>
      match l.progress, r with
      | .rows (row :: rest) L, .ok content =>
          { l with progress := .rows rest (L.addRow row (some content.length)) }
      | .rows (row :: rest) L, .error .notExist =>
          { l with progress := .rows rest (L.addRow row none) }
      | .rows _ _, .error .failed => { l with progress := .idle }
      | _, r => { l with opened := some r }
  | .list .images, .ok entries => { l with entries := some entries }
  | _, _ => l

def Ledger.record (l : Ledger) : (a : Action) → Response a → Ledger
  | .sync s, _ => l.recordSync s
  | .statement q, r => l.recordStatement P q r
  | .index s, _ => l.recordIndex s
  | .getTarget _, r => { l with looked := some r, opened := none }
  | .getAlias _, r => { l with looked := some r, opened := none }
  | .getSession _ _, r => { l with admitted := l.admitted || r.isSome }
  | .getToken _ _, r =>
      { l with admitted := l.admitted || r.any fun t => t.hasScope .imagesReadPrivate }
  | .file a, r => l.recordFile P a r
  | .now, t => { l with time := some t }
  | .newUUID, .ok id => { l with pending := insert id l.pending }
  | _, _ => l

variable {P} {l : Ledger}

section Records

variable {path key id : GoString} {f : Facts}

theorem Ledger.recordFile_inspect {limits : Processor.Limits} {metadata : Processor.Metadata}
    (owned : l.temps path = some f) :
    l.recordFile P (.inspect (.temporary path) limits) (.ok metadata) =
      l.know path { f with mime := some metadata.mimeType } := by
  change (match l.temps path with
    | some f => l.know path { f with mime := some metadata.mimeType }
    | none => l) = _
  rw [owned]

theorem Ledger.recordFile_hash {stored : Int × Digest} (owned : l.temps path = some f) :
    l.recordFile P (.hash path) (.ok stored) =
      l.know path { f with size := some stored.1, digest := some stored.2 } := by
  change (match l.temps path with
    | some f => l.know path { f with size := some stored.1, digest := some stored.2 }
    | none => l) = _
  rw [owned]

theorem Ledger.recordFile_rename {u : Unit} (owned : l.temps path = some f) :
    l.recordFile P (.rename path .images key) (.ok u) =
      { l.know path .nothing with
        placed := some (key, f), pending := l.pending.erase key } := by
  change { l.know path .nothing with
    placed := (l.temps path).map fun f => (key, f), pending := l.pending.erase key } = _
  rw [owned, Option.map_some]

theorem Ledger.recordFile_removeImage (r : Except Error Unit) :
    l.recordFile P (.remove .images key) r =
      if l.placed.map Prod.fst = some key then { l with placed := none } else l := rfl

theorem Ledger.recordFile_removeThumbnail (r : Except Error Unit) :
    l.recordFile P (.remove .thumbnails id) r =
      if l.thumb = some id then { l with thumb := none } else l := rfl

theorem Ledger.recordStatement_getImage {v : Image} (locked : l.image = some id) :
    l.recordStatement P (.getImage id) (.ok v) = { l with row := some v } := if_pos locked

end Records

variable (P)

abbrev discipline : Discipline Action Response where
  Ledger := Ledger
  Permits l a := l.permits P a
  Reports l a r := l.reports a r
  record l a r := l.record P a r

end ImageSilo.Publication
