import ImageSilo.Database.Statements
import ImageSilo.Database.Text
import ImageSilo.Go.Base64
import ImageSilo.Go.Json
import ImageSilo.Go.Unicode
import Mathlib.Data.List.Sort

/-! `Search` of the image service and `ListPage` of the alias service, with their cursors. -/
namespace ImageSilo

open Go

inductive ListError
  | invalidListFilter
  | invalidCursor
  deriving DecidableEq

structure Page (α : Type) where
  items : List α
  nextCursor : GoString

namespace Listing

structure ListCursor where
  createdAt : Int
  id : GoString
  deriving DecidableEq

/-- `json.Marshal` of a cursor. -/
def ListCursor.marshal (cursor : ListCursor) : GoString :=
  0x7b :: Json.quote (str "createdAt") ++ 0x3a :: Json.formatInt cursor.createdAt ++
    0x2c :: Json.quote (str "id") ++ 0x3a :: Json.quote cursor.id ++ [0x7d]

/-- Stores one member of the object in the field it belongs to; `null` leaves the field alone. -/
def ListCursor.store (cursor : ListCursor) (member : GoString × Json.Value) : Option ListCursor :=
  if Json.foldName member.1 = Json.foldName (str "createdAt") then
    match member.2 with
    | .null => some cursor
    | .number text => (Json.parseInt64 text).map fun n => { cursor with createdAt := n }
    | _ => none
  else if Json.foldName member.1 = Json.foldName (str "id") then
    match member.2 with
    | .null => some cursor
    | .string text => some { cursor with id := text }
    | _ => none
  else some cursor

/-- `json.Unmarshal` into a cursor. -/
def ListCursor.unmarshal (raw : GoString) : Option ListCursor :=
  match Json.parse raw with
  | some (.object members) => members.foldlM ListCursor.store ⟨0, []⟩
  | some .null => some ⟨0, []⟩
  | _ => none

def encodeListCursor (cursor : ListCursor) : GoString := Base64.encode cursor.marshal

variable (P : Platform)

def decodeListCursor (value : GoString) : Option ListCursor :=
  match (Base64.decode value).bind ListCursor.unmarshal with
  | none => none
  | some cursor =>
      if !P.isCanonicalUUID cursor.id ∨ cursor.createdAt ≤ 0 then none else some cursor

def pageLimit (limit : Int) : Int := if limit ≤ 0 ∨ 100 < limit then 50 else limit

/-- `LIMIT ?`; a negative limit is none. -/
def limited {α : Type} (limit : Int) (rows : List α) : List α :=
  if limit < 0 then rows else rows.take limit.toNat

/-- `created_at < ? OR (created_at = ? AND id < ?)`. -/
def before (cursor : ListCursor) (createdAt : Int) (id : GoString) : Bool :=
  createdAt < cursor.createdAt || (createdAt == cursor.createdAt && id < cursor.id)

/-- The order `created_at DESC, id DESC`. -/
def descending (createdAt : Int) (id : GoString) (createdAt' : Int) (id' : GoString) : Bool :=
  createdAt' < createdAt || (createdAt == createdAt' && !(id < id'))

/-- The first rows of a fetch that asked for one row more than the page holds. -/
def pageOf {α : Type} (limit : Int) (position : α → ListCursor) (fetched : List α) : Page α :=
  if limit < fetched.length then
    { items := fetched.take limit.toNat
      nextCursor := match (fetched.take limit.toNat).getLast? with
        | some last => encodeListCursor (position last)
        | none => [] }
  else ⟨fetched, []⟩

end Listing

namespace ImageList

open Listing

structure ListFilter where
  limit : Int
  cursor : GoString
  query : GoString
  visibility : Visibility
  mimeType : GoString
  uploadedVia : GoString
  createdFrom : Option Time
  createdTo : Option Time
  minStoredBytes : Int
  maxStoredBytes : Int
  minWidth : Int
  maxWidth : Int
  minHeight : Int
  maxHeight : Int

/-- The empty text as a visibility. -/
def anyVisibility : Visibility := .other []

def validateListFilter (filter : ListFilter) : Bool :=
  !((runes (trimSpace filter.query)).length > 200 ||
    (filter.visibility ≠ anyVisibility && filter.visibility ≠ .isPublic &&
      filter.visibility ≠ .isPrivate) ||
    (filter.mimeType ≠ [] && filter.mimeType ≠ str "image/jpeg" && filter.mimeType ≠ str "image/png" &&
      filter.mimeType ≠ str "image/webp" && filter.mimeType ≠ str "image/gif") ||
    (filter.uploadedVia ≠ [] && filter.uploadedVia ≠ str "admin" &&
      filter.uploadedVia ≠ str "api_token" && filter.uploadedVia ≠ str "import") ||
    filter.minStoredBytes < 0 || filter.maxStoredBytes < 0 || filter.minWidth < 0 ||
    filter.maxWidth < 0 || filter.minHeight < 0 || filter.maxHeight < 0 ||
    (filter.maxStoredBytes > 0 && filter.minStoredBytes > filter.maxStoredBytes) ||
    (filter.maxWidth > 0 && filter.minWidth > filter.maxWidth) ||
    (filter.maxHeight > 0 && filter.minHeight > filter.maxHeight) ||
    (match filter.createdFrom, filter.createdTo with
      | some lower, some upper => lower > upper
      | _, _ => false))

structure RepositoryListFilter where
  limit : Int
  beforeUnix : Int
  beforeID : GoString
  query : GoString
  visibility : Visibility
  mimeType : GoString
  uploadedVia : GoString
  createdFrom : Option Time
  createdTo : Option Time
  minStoredBytes : Int
  maxStoredBytes : Int
  minWidth : Int
  maxWidth : Int
  minHeight : Int
  maxHeight : Int

def escapeLike (value : GoString) : GoString :=
  let value := replaceAll value (str "\\") (str "\\\\")
  let value := replaceAll value (str "%") (str "\\%")
  replaceAll value (str "_") (str "\\_")

/-- No replacement meets what an earlier one has put in but its own character. -/
theorem escapeLike_flatMap (value : GoString) : escapeLike value =
    value.flatMap fun c => if c = 0x5c ∨ c = 0x25 ∨ c = 0x5f then [0x5c, c] else [c] := by
  have backslash : str "\\" = [0x5c] := rfl
  have percent : str "%" = [0x25] := rfl
  have underscore : str "_" = [0x5f] := rfl
  unfold escapeLike
  simp only [backslash, percent, underscore, replaceAll_byte, List.flatMap_assoc]
  congr
  funext c
  by_cases first : c = 0x5c
  · subst first
    rfl
  by_cases second : c = 0x25
  · subst second
    rfl
  by_cases third : c = 0x5f
  · subst third
    rfl
  · simp [first, second, third]

def pattern (query : GoString) : GoString := 0x25 :: escapeLike (toLower query) ++ [0x25]

def likes (query text : GoString) : Bool := Sqlite.like 0x5c (pattern query) (Sqlite.lower text)

/-- The columns that a query is looked for in. -/
def queryMatches (db : Database) (query : GoString) (v : Image) : Bool :=
  likes query v.originalName || likes query v.id ||
    likes query (Sqlite.hex v.sourceSHA256.toList) || likes query (Sqlite.hex v.storedSHA256.toList) ||
    db.aliases.any fun a => a.imageID == v.id && likes query a.path

def appendIntegerFilter (column minimum maximum : Int) : Bool :=
  (!(minimum > 0) || minimum ≤ column) && (!(maximum > 0) || column ≤ maximum)

/-- The conditions of the query but for the position. -/
def RepositoryListFilter.accepts (filter : RepositoryListFilter) (db : Database) (v : Image) : Bool :=
  (filter.query == [] || queryMatches db filter.query v) &&
    (filter.visibility == anyVisibility || v.visibility == filter.visibility) &&
    (filter.mimeType == [] || v.mimeType == filter.mimeType) &&
    (filter.uploadedVia == [] || v.uploadedVia == filter.uploadedVia) &&
    (filter.createdFrom.all fun t => unix t ≤ unix v.createdAt) &&
    (filter.createdTo.all fun t => unix v.createdAt ≤ unix t) &&
    appendIntegerFilter v.storedSize filter.minStoredBytes filter.maxStoredBytes &&
    appendIntegerFilter v.width filter.minWidth filter.maxWidth &&
    appendIntegerFilter v.height filter.minHeight filter.maxHeight

def listFiltered (db : Database) (filter : RepositoryListFilter) : List Image :=
  limited filter.limit
    ((db.images.filter fun v =>
      (filter.beforeID == [] ||
        before ⟨filter.beforeUnix, filter.beforeID⟩ (unix v.createdAt) v.id) &&
      filter.accepts db v).insertionSort fun v w =>
        descending (unix v.createdAt) v.id (unix w.createdAt) w.id)

def position (v : Image) : ListCursor := ⟨unix v.createdAt, v.id⟩

def ListFilter.toRepository (filter : ListFilter) (limit : Int) : RepositoryListFilter where
  limit := limit + 1
  beforeUnix := 0
  beforeID := []
  query := trimSpace filter.query
  visibility := filter.visibility
  mimeType := filter.mimeType
  uploadedVia := filter.uploadedVia
  createdFrom := filter.createdFrom
  createdTo := filter.createdTo
  minStoredBytes := filter.minStoredBytes
  maxStoredBytes := filter.maxStoredBytes
  minWidth := filter.minWidth
  maxWidth := filter.maxWidth
  minHeight := filter.minHeight
  maxHeight := filter.maxHeight

def search (P : Platform) (db : Database) (filter : ListFilter) : Except ListError (Page Image) :=
  if validateListFilter filter = false then .error .invalidListFilter
  else
    let limit := pageLimit filter.limit
    let repositoryFilter := filter.toRepository limit
    if filter.cursor = [] then .ok (pageOf limit position (listFiltered db repositoryFilter))
    else
      match decodeListCursor P filter.cursor with
      | none => .error .invalidListFilter
      | some cursor =>
          .ok (pageOf limit position (listFiltered db
            { repositoryFilter with beforeUnix := cursor.createdAt, beforeID := cursor.id }))

end ImageList

namespace AliasList

open Listing

def repositoryListPage (db : Database) (limit beforeUnix : Int) (beforeID : GoString) : List Alias :=
  limited limit
    ((db.aliases.filter fun a =>
      beforeID == [] || before ⟨beforeUnix, beforeID⟩ (unix a.createdAt) a.id).insertionSort
        fun a b => descending (unix a.createdAt) a.id (unix b.createdAt) b.id)

def position (a : Alias) : ListCursor := ⟨unix a.createdAt, a.id⟩

def maxCursorLength : Nat := 512

def listPage (P : Platform) (db : Database) (limit : Int) (rawCursor : GoString) :
    Except ListError (Page Alias) :=
  let limit := pageLimit limit
  if rawCursor = [] then .ok (pageOf limit position (repositoryListPage db (limit + 1) 0 []))
  else if maxCursorLength < rawCursor.length then .error .invalidCursor
  else
    match decodeListCursor P rawCursor with
    | none => .error .invalidCursor
    | some cursor =>
        .ok (pageOf limit position
          (repositoryListPage db (limit + 1) cursor.createdAt cursor.id))

end AliasList

end ImageSilo
