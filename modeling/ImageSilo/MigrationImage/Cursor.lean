import ImageSilo.Go.Base64
import ImageSilo.Go.Json
import ImageSilo.MigrationImage.Listing

/-! A cursor goes to the client as JSON in base64 and comes back as it was. -/
namespace ImageSilo.Migrations

open Go Storage Delivery

/-- `json.Marshal` of a cursor. -/
def ListCursor.marshal (cursor : ListCursor) : GoString :=
  0x7b :: Json.quote (str "modifiedAt") ++ 0x3a :: Json.formatInt cursor.modifiedAt ++
    0x2c :: Json.quote (str "path") ++ 0x3a :: Json.quote cursor.path ++ [0x7d]

/-- Stores one member of the object in the field it belongs to; `null` leaves the field alone. -/
def ListCursor.store (cursor : ListCursor) (member : GoString × Json.Value) : Option ListCursor :=
  if Json.foldName member.1 = Json.foldName (str "modifiedAt") then
    match member.2 with
    | .null => some cursor
    | .number text => (Json.parseInt64 text).map fun n => { cursor with modifiedAt := n }
    | _ => none
  else if Json.foldName member.1 = Json.foldName (str "path") then
    match member.2 with
    | .null => some cursor
    | .string text => some { cursor with path := text }
    | _ => none
  else some cursor

/-- `json.Unmarshal` into a cursor. -/
def ListCursor.unmarshal (raw : GoString) : Option ListCursor :=
  match Json.parse raw with
  | some (.object members) => members.foldlM ListCursor.store ⟨0, []⟩
  | some .null => some ⟨0, []⟩
  | _ => none

def encodeCursor (value : ListCursor) : GoString := Base64.encode value.marshal

/-- The cursor that stands in a request. -/
def Cursor.ofText (raw : GoString) : Cursor :=
  if raw = [] then .empty
  else
    match (Base64.decode raw).bind ListCursor.unmarshal with
    | some value => .encoded value
    | none => .malformed

/-- The cursor as a page shows it. -/
def Cursor.text : Cursor → GoString
  | .encoded value => encodeCursor value
  | _ => []

section RoundTrip

variable {P : Platform} {cursor : ListCursor}

/-- A cursor of an item: the time is an integer of 64 bits, and the path is one that aliases can have. -/
structure ListCursor.Writable (P : Platform) (cursor : ListCursor) : Prop where
  low : -9223372036854775808 ≤ cursor.modifiedAt
  high : cursor.modifiedAt ≤ 9223372036854775807
  normal : ∃ relativePath, normalizeImagePath P cursor.path = some (cursor.path, relativePath)

theorem isURLByte_plain : ∀ c : UInt8, isURLByte c = true → Json.isPlain c = true :=
  forall_byte (by decide +kernel)

theorem ListCursor.Writable.plain (writable : cursor.Writable P) :
    ∀ c ∈ cursor.path, Json.isPlain c = true := by
  obtain ⟨relativePath, normal⟩ := writable.normal
  obtain ⟨-, decoded, -, -, spelled, -, -⟩ :=
    normalizeAliasPath_ok (normalizeImagePath_some normal).1
  intro c member
  rw [spelled] at member
  exact isURLByte_plain c (escapedPath_bytes decoded c member)

theorem ListCursor.Writable.parsed (writable : cursor.Writable P) :
    Json.parse cursor.marshal = some (.object
      [(str "modifiedAt", .number (Json.formatInt cursor.modifiedAt)),
        (str "path", .string cursor.path)]) := by
  have modifiedAt : ∀ c ∈ str "modifiedAt", Json.isSafe c = true := List.all_eq_true.mp (by decide)
  have path : ∀ c ∈ str "path", Json.isSafe c = true := List.all_eq_true.mp (by decide)
  have last : ∀ fuel, Json.readMembers (fuel + 2) 1
      (Json.quote (str "path") ++ 0x3a :: (Json.quote cursor.path ++ [0x7d])) =
        some ([(str "path", .string cursor.path)], []) := by
    intro fuel
    exact Json.readMembers_last path (Json.readValue_quote writable.plain)
  have both : ∀ fuel, Json.readMembers (fuel + 3) 1
      (Json.quote (str "modifiedAt") ++ 0x3a :: (Json.formatInt cursor.modifiedAt ++
        0x2c :: (Json.quote (str "path") ++ 0x3a :: (Json.quote cursor.path ++ [0x7d])))) =
          some ([(str "modifiedAt", .number (Json.formatInt cursor.modifiedAt)),
            (str "path", .string cursor.path)], []) := by
    intro fuel
    rw [Json.readMembers_more modifiedAt (Json.readValue_formatInt _ (by decide)), last fuel]
    rfl
  have front := Json.quote_safe modifiedAt
  have written : cursor.marshal = 0x7b :: (Json.quote (str "modifiedAt") ++
      0x3a :: (Json.formatInt cursor.modifiedAt ++
        0x2c :: (Json.quote (str "path") ++ 0x3a :: (Json.quote cursor.path ++ [0x7d])))) := by
    simp [ListCursor.marshal]
  rw [written]
  rw [front, List.cons_append, List.cons_append] at both ⊢
  exact Json.parse_members (both _)

theorem ListCursor.Writable.unmarshals (writable : cursor.Writable P) :
    ListCursor.unmarshal cursor.marshal = some cursor := by
  unfold ListCursor.unmarshal
  rw [writable.parsed]
  simp only [List.foldlM_cons, List.foldlM_nil]
  have modifiedAt : ListCursor.store ⟨0, []⟩
      (str "modifiedAt", .number (Json.formatInt cursor.modifiedAt)) =
        some ⟨cursor.modifiedAt, []⟩ := by
    unfold ListCursor.store
    rw [if_pos rfl]
    simp only [Json.parseInt64_formatInt writable.low writable.high, Option.map_some]
  have path : ListCursor.store ⟨cursor.modifiedAt, []⟩ (str "path", .string cursor.path) =
      some cursor := by
    unfold ListCursor.store
    rw [if_neg (show Json.foldName (str "path") ≠ Json.foldName (str "modifiedAt") by decide),
      if_pos rfl]
  rw [modifiedAt, Option.bind_eq_bind, Option.bind_some, path]
  rfl

theorem encodeCursor_ne_nil : encodeCursor cursor ≠ [] := Base64.encode_ne_nil (List.cons_ne_nil _ _)

theorem ListCursor.Writable.ofText (writable : cursor.Writable P) :
    Cursor.ofText (encodeCursor cursor) = .encoded cursor := by
  unfold Cursor.ofText
  rw [if_neg encodeCursor_ne_nil, encodeCursor, Base64.decode_encode, Option.bind_some,
    writable.unmarshals]

/-- The decoder accepts the text of such a cursor and gives back the cursor. -/
theorem ListCursor.Writable.decodes (writable : cursor.Writable P) :
    decodeCursor P (Cursor.ofText (encodeCursor cursor)) = some cursor := by
  obtain ⟨relativePath, normal⟩ := writable.normal
  rw [writable.ofText, decodeCursor, normal]
  exact if_pos rfl

/-- The cursor of an item. -/
theorem ItemOf.writable {tree : Tree} {path : TreePath} {item : Image} (spec : ItemOf P tree path item)
    (low : -2 ^ 63 ≤ item.modifiedAt) (high : item.modifiedAt < 2 ^ 63) :
    (⟨unixNano item.modifiedAt, item.path⟩ : ListCursor).Writable P where
  low := by
    rw [unixNano_dated low high]
    exact low
  high := by
    rw [unixNano_dated low high]
    exact Int.le_of_lt_add_one high
  normal := ⟨item.relativePath, spec.normalizes⟩

end RoundTrip

end ImageSilo.Migrations
