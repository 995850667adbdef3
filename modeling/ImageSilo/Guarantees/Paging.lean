import ImageSilo.Image.Listing
import ImageSilo.System.Boot
import ImageSilo.Tables.Keyset
import Mathlib.Data.Prod.Lex
import Mathlib.Data.List.Lex

/-! Following the cursors of a list loses and repeats no row. -/
namespace ImageSilo.Listing

open Go Tables

section Order

/-- The numbers that are compared for a cursor. -/
def ListCursor.digits (cursor : ListCursor) : Int ×ₗ List Nat :=
  toLex (cursor.createdAt, cursor.id.map UInt8.toNat)

theorem ListCursor.digits_injective : Function.Injective ListCursor.digits := by
  intro first second same
  obtain ⟨createdAt, id⟩ := first
  obtain ⟨createdAt', id'⟩ := second
  obtain ⟨times, ids⟩ := Prod.mk.inj (toLex_inj.mp same)
  have inj : Function.Injective UInt8.toNat := fun a b same => UInt8.toNat_inj.mp same
  rw [ListCursor.mk.injEq]
  exact ⟨times, List.map_injective_iff.mpr inj ids⟩

instance : LinearOrder ListCursor := LinearOrder.lift' _ ListCursor.digits_injective

theorem map_toNat_lt {id id' : GoString} :
    id.map UInt8.toNat < id'.map UInt8.toNat ↔ id < id' := by
  induction id generalizing id' with
  | nil => cases id' <;> simp
  | cons c id ih =>
      cases id' with
      | nil => simp
      | cons d id' =>
          rw [List.map_cons, List.map_cons, List.cons_lt_cons_iff, List.cons_lt_cons_iff, ih,
            UInt8.lt_iff_toNat_lt, UInt8.toNat_inj]

theorem ListCursor.lt_iff {first second : ListCursor} :
    first < second ↔ first.createdAt < second.createdAt ∨
      (first.createdAt = second.createdAt ∧ first.id < second.id) := by
  rw [← map_toNat_lt]
  exact Prod.Lex.toLex_lt_toLex

theorem before_iff {cursor row : ListCursor} :
    before cursor row.createdAt row.id = true ↔ row < cursor := by
  rw [ListCursor.lt_iff]
  simp [before]

theorem descending_iff {first second : ListCursor} :
    descending first.createdAt first.id second.createdAt second.id = true ↔ second ≤ first := by
  rw [← not_lt, ListCursor.lt_iff]
  simp only [descending, Bool.or_eq_true, Bool.and_eq_true, decide_eq_true_eq, beq_iff_eq,
    Bool.not_eq_true', decide_eq_false_iff_not]
  constructor
  · rintro (later | ⟨same, order⟩) (earlier | ⟨equal, lower⟩)
    · omega
    · omega
    · omega
    · exact order lower
  · intro lower
    rcases lt_trichotomy second.createdAt first.createdAt with later | same | earlier
    · exact .inl later
    · exact .inr ⟨same.symm, fun less => lower (.inr ⟨same.symm, less⟩)⟩
    · exact absurd (.inl earlier) lower

end Order

section Cursors

variable {P : Platform} {cursor : ListCursor}

/-- A lower-case hexadecimal digit or a hyphen. -/
def isUUIDByte (c : UInt8) : Prop := Json.isDigit c = true ∨ (0x61 ≤ c ∧ c ≤ 0x66) ∨ c = 0x2d

instance : DecidablePred isUUIDByte := fun _ => inferInstanceAs (Decidable (_ ∨ _))

/-- A canonical UUID has 36 characters. -/
def WritesUUIDs (P : Platform) : Prop :=
  ∀ id, P.isCanonicalUUID id = true → id.length = 36 ∧ ∀ c ∈ id, isUUIDByte c

/-- What the columns of a row that the program writes hold; the time is an integer of 64 bits. -/
structure Recorded (P : Platform) (cursor : ListCursor) : Prop where
  canonical : P.isCanonicalUUID cursor.id = true
  positive : 0 < cursor.createdAt
  small : cursor.createdAt ≤ 9223372036854775807

theorem isUUIDByte.safe {c : UInt8} (h : isUUIDByte c) : Json.isSafe c = true := by
  have special : ∀ d, d = 0x22 ∨ d = 0x26 ∨ d = 0x3c ∨ d = 0x3e ∨ d = 0x5c → c ≠ d := by
    rintro d bad rfl
    rcases bad with rfl | rfl | rfl | rfl | rfl <;> revert h <;> unfold isUUIDByte <;> decide
  have range : 0x20 ≤ c ∧ c < 0x80 := by
    rw [UInt8.le_iff_toNat_le, UInt8.lt_iff_toNat_lt]
    rcases h with digit | ⟨lower, upper⟩ | rfl
    · simp only [Json.isDigit, Bool.and_eq_true, decide_eq_true_eq, UInt8.le_iff_toNat_le] at digit
      exact ⟨(show 0x20 ≤ 0x30 by decide).trans digit.1, lt_of_le_of_lt digit.2 (by decide)⟩
    · rw [UInt8.le_iff_toNat_le] at lower upper
      exact ⟨(show 0x20 ≤ 0x61 by decide).trans lower, lt_of_le_of_lt upper (by decide)⟩
    · decide
  have plain : (str "\"&<>\\").contains c = false := by
    change [0x22, 0x26, 0x3c, 0x3e, 0x5c].contains c = false
    rw [List.contains_eq_mem, decide_eq_false_iff_not]
    intro member
    simp only [List.mem_cons, List.not_mem_nil, or_false] at member
    exact special c member rfl
  unfold Json.isSafe
  rw [plain, decide_eq_true range.1, decide_eq_true range.2]
  rfl

theorem Recorded.safe (recorded : Recorded P cursor) (uuids : WritesUUIDs P) :
    ∀ c ∈ cursor.id, Json.isSafe c = true := by
  intro c member
  exact isUUIDByte.safe ((uuids cursor.id recorded.canonical).2 c member)

theorem Recorded.parsed (recorded : Recorded P cursor) (uuids : WritesUUIDs P) :
    Json.parse cursor.marshal = some (.object
      [(str "createdAt", .number (Json.formatInt cursor.createdAt)),
        (str "id", .string cursor.id)]) := by
  have createdAt : ∀ c ∈ str "createdAt", Json.isSafe c = true := List.all_eq_true.mp (by decide)
  have id : ∀ c ∈ str "id", Json.isSafe c = true := List.all_eq_true.mp (by decide)
  have last : ∀ fuel, Json.readMembers (fuel + 2) 1
      (Json.quote (str "id") ++ 0x3a :: (Json.quote cursor.id ++ [0x7d])) =
        some ([(str "id", .string cursor.id)], []) := by
    intro fuel
    exact Json.readMembers_last id
      (Json.readValue_quote fun c member => Json.isSafe.plain (recorded.safe uuids c member))
  have both : ∀ fuel, Json.readMembers (fuel + 3) 1
      (Json.quote (str "createdAt") ++ 0x3a :: (Json.formatInt cursor.createdAt ++
        0x2c :: (Json.quote (str "id") ++ 0x3a :: (Json.quote cursor.id ++ [0x7d])))) =
          some ([(str "createdAt", .number (Json.formatInt cursor.createdAt)),
            (str "id", .string cursor.id)], []) := by
    intro fuel
    rw [Json.readMembers_more createdAt (Json.readValue_formatInt _ (by decide)), last fuel]
    rfl
  have front := Json.quote_safe createdAt
  have written : cursor.marshal = 0x7b :: (Json.quote (str "createdAt") ++
      0x3a :: (Json.formatInt cursor.createdAt ++
        0x2c :: (Json.quote (str "id") ++ 0x3a :: (Json.quote cursor.id ++ [0x7d])))) := by
    simp [ListCursor.marshal]
  rw [written]
  rw [front, List.cons_append, List.cons_append] at both ⊢
  exact Json.parse_members (both _)

theorem Recorded.unmarshals (recorded : Recorded P cursor) (uuids : WritesUUIDs P) :
    ListCursor.unmarshal cursor.marshal = some cursor := by
  have lower : -9223372036854775808 ≤ cursor.createdAt := by
    have := recorded.positive
    omega
  unfold ListCursor.unmarshal
  rw [recorded.parsed uuids]
  simp only [List.foldlM_cons, List.foldlM_nil]
  have createdAt : ListCursor.store ⟨0, []⟩
      (str "createdAt", .number (Json.formatInt cursor.createdAt)) = some ⟨cursor.createdAt, []⟩ := by
    unfold ListCursor.store
    rw [if_pos rfl]
    simp only [Json.parseInt64_formatInt lower recorded.small, Option.map_some]
  have id : ListCursor.store ⟨cursor.createdAt, []⟩ (str "id", .string cursor.id) = some cursor := by
    unfold ListCursor.store
    rw [if_neg (show Json.foldName (str "id") ≠ Json.foldName (str "createdAt") by decide),
      if_pos rfl]
  rw [createdAt, Option.bind_eq_bind, Option.bind_some, id]
  rfl

/-- The decoder accepts the cursor of a recorded row and gives back its position. -/
theorem Recorded.decodes (recorded : Recorded P cursor) (uuids : WritesUUIDs P) :
    decodeListCursor P (encodeListCursor cursor) = some cursor := by
  unfold decodeListCursor encodeListCursor
  rw [Base64.decode_encode, Option.bind_some, recorded.unmarshals uuids]
  simp only [recorded.canonical, Bool.not_true, Bool.false_eq_true, false_or]
  rw [if_neg (not_le.mpr recorded.positive)]

theorem encodeListCursor_ne_nil : encodeListCursor cursor ≠ [] :=
  Base64.encode_ne_nil (List.cons_ne_nil _ _)

theorem length_decimal {n : Nat} {k : Nat} (small : n < 10 ^ k) (positive : 0 < k) :
    (Json.decimal n).length ≤ k := by
  unfold Json.decimal
  split
  · exact positive
  · rename_i nonzero
    rw [List.length_map, List.length_reverse]
    exact (Nat.digits_length_le_iff (by decide) n).mpr small

theorem Recorded.short (recorded : Recorded P cursor) (uuids : WritesUUIDs P) :
    (encodeListCursor cursor).length ≤ AliasList.maxCursorLength := by
  have digits : (Json.formatInt cursor.createdAt).length ≤ 19 := by
    have positive := recorded.positive
    have small := recorded.small
    unfold Json.formatInt
    rw [if_neg (by omega)]
    exact length_decimal (by omega) (by decide)
  have id := (uuids cursor.id recorded.canonical).1
  have quoted := congrArg List.length (Json.quote_safe (recorded.safe uuids))
  have names : (Json.quote (str "createdAt")).length = 11 ∧ (Json.quote (str "id")).length = 4 := by
    decide
  have marshal : cursor.marshal.length ≤ 77 := by
    simp only [ListCursor.marshal, List.length_cons, List.length_append, List.length_nil] at quoted ⊢
    omega
  have := Base64.length_encode cursor.marshal
  unfold encodeListCursor AliasList.maxCursorLength
  omega

end Cursors

section Client

variable {α : Type} {P : Platform} {position : α → ListCursor}

/-- A client that asks for the first page and then follows the cursors; `fetch i` is the answer to its
request number `i`, from the database as it is by then. -/
def readPages (fetch : Nat → GoString → Except ListError (Page α)) :
    Nat → Nat → GoString → Option (List (Page α))
  | 0, _, _ => none
  | fuel + 1, i, cursor =>
      match fetch i cursor with
      | .error _ => none
      | .ok page =>
          if page.nextCursor = [] then some [page]
          else (readPages fetch fuel (i + 1) page.nextCursor).map fun later => page :: later

/-- What a client reads does not depend on how long it may go on. -/
theorem readPages_agree {fetch : Nat → GoString → Except ListError (Page α)} {m n i : Nat}
    {cursor : GoString} {pages others : List (Page α)}
    (read : readPages fetch m i cursor = some pages)
    (again : readPages fetch n i cursor = some others) : pages = others := by
  induction m generalizing n i cursor pages others with
  | zero => cases read
  | succ m ih =>
      cases n with
      | zero => cases again
      | succ n =>
          rw [readPages] at read again
          cases answer : fetch i cursor with
          | error e =>
              rw [answer] at read
              cases read
          | ok page =>
              simp only [answer] at read again
              split at read
              · rename_i last
                rw [if_pos last] at again
                exact Option.some.inj (read.symm.trans again)
              · rename_i more
                rw [if_neg more] at again
                obtain ⟨later, rest, rfl⟩ := Option.map_eq_some_iff.mp read
                obtain ⟨others, same, rfl⟩ := Option.map_eq_some_iff.mp again
                rw [ih rest same]

theorem readPages_answers {fetch : Nat → GoString → Except ListError (Page α)} {fuel i : Nat}
    {cursor : GoString} {pages : List (Page α)} (read : readPages fetch fuel i cursor = some pages) :
    ∀ page ∈ pages, ∃ j cursor, fetch j cursor = .ok page := by
  induction fuel generalizing i cursor pages with
  | zero => cases read
  | succ fuel ih =>
      rw [readPages] at read
      cases answer : fetch i cursor with
      | error e =>
          rw [answer] at read
          cases read
      | ok page =>
          simp only [answer] at read
          split at read
          · cases read
            intro p member
            rw [List.mem_singleton.mp member]
            exact ⟨i, cursor, answer⟩
          · obtain ⟨later, rest, rfl⟩ := Option.map_eq_some_iff.mp read
            intro p member
            rcases List.mem_cons.mp member with rfl | there
            · exact ⟨i, cursor, answer⟩
            · exact ih rest p there

def cursorText : Option ListCursor → GoString
  | none => []
  | some cursor => encodeListCursor cursor

theorem insertionSort_congr {r s : α → α → Prop} [DecidableRel r] [DecidableRel s]
    (same : ∀ a b, r a b ↔ s a b) (rows : List α) : rows.insertionSort r = rows.insertionSort s := by
  obtain rfl : r = s := by
    funext a b
    exact propext (same a b)
  congr

/-- The rows of a fetch below a position are those of a page of the table, with one row more. -/
theorem fetched_ordered (place : Option ListCursor) (rows : List α) (accepts : α → Bool) :
    (rows.filter fun r => (place.all fun cursor =>
      before cursor (position r).createdAt (position r).id) && accepts r).insertionSort
        (fun r s => descending (position r).createdAt (position r).id (position s).createdAt
          (position s).id) =
      Keyset.ordered position place (rows.filter accepts) := by
  unfold Keyset.ordered
  rw [List.filter_filter]
  have same : (fun r => (place.all fun cursor =>
      before cursor (position r).createdAt (position r).id) && accepts r) =
      fun r => (place.all fun k => decide (position r < k)) && accepts r := by
    funext r
    congr 2
    funext cursor
    rw [Bool.eq_iff_iff, before_iff, decide_eq_true_eq]
  rw [same]
  exact insertionSort_congr (fun _ _ => descending_iff) _

/-- A page of a fetch with one row more than the page holds. -/
theorem pageOf_limited {limit : Int} (positive : 0 < limit) (place : Option ListCursor)
    (rows : List α) :
    pageOf limit position (limited (limit + 1) (Keyset.ordered position place rows)) =
      ⟨Keyset.items position limit.toNat place rows,
        cursorText (Keyset.next position limit.toNat place rows)⟩ := by
  have fetched : limited (limit + 1) (Keyset.ordered position place rows) =
      (Keyset.ordered position place rows).take (limit.toNat + 1) := by
    unfold limited
    rw [if_neg (by omega), show (limit + 1).toNat = limit.toNat + 1 by omega]
  rw [fetched]
  unfold pageOf Keyset.next Keyset.items
  rw [List.length_take, List.take_take]
  by_cases more : limit.toNat < (Keyset.ordered position place rows).length
  · rw [if_pos (by omega), if_pos more, Nat.min_eq_left (Nat.le_succ _)]
    cases (List.take limit.toNat (Keyset.ordered position place rows)).getLast? with
    | none => rfl
    | some last => rfl
  · rw [if_neg (by omega), if_neg more, List.take_of_length_le (by omega),
      List.take_of_length_le (not_lt.mp more)]
    rfl

/-- The answers to a client are the pages of a table, for every position that a cursor can name. -/
def Answers {κ : Type} [LinearOrder κ] (key : α → κ) (text : κ → GoString) (valid : κ → Prop)
    (rows : Nat → List α) (limit : Nat → Nat)
    (fetch : Nat → GoString → Except ListError (Page α)) : Prop :=
  ∀ i place, (∀ k, place = some k → valid k) →
    fetch i (place.elim [] text) = .ok ⟨Keyset.items key (limit i) place (rows i),
      (Keyset.next key (limit i) place (rows i)).elim [] text⟩

/-- What the client of such a service reads. -/
theorem Answers.reads {κ : Type} [LinearOrder κ] {key : α → κ} {text : κ → GoString}
    {valid : κ → Prop} {rows : Nat → List α} {limit : Nat → Nat}
    {fetch : Nat → GoString → Except ListError (Page α)}
    (answers : Answers key text valid rows limit fetch) (nonempty : ∀ k, text k ≠ [])
    (positions : ∀ i, ∀ r ∈ rows i, valid (key r)) {i : Nat} {place : Option κ}
    {lists : List (List α)} (reads : Keyset.Reads key rows limit i place lists)
    (start : ∀ k, place = some k → valid k) :
    ∃ fuel pages, readPages fetch fuel i (place.elim [] text) = some pages ∧
      pages.map Page.items = lists ∧
      ∀ page ∈ pages, page.nextCursor ≠ [] →
        ∃ last, page.items.getLast? = some last ∧ page.nextCursor = text (key last) := by
  induction reads with
  | last done =>
      rename_i i place
      refine ⟨1, [⟨Keyset.items key (limit i) place (rows i), []⟩], ?_, rfl, ?_⟩
      · rw [readPages, answers i place start, done]
        rfl
      · intro page member named
        rw [List.mem_singleton.mp member] at named
        exact absurd rfl named
  | more found later ih =>
      rename_i i place k lists
      have on : ∀ other, some k = some other → valid other := by
        rintro other ⟨⟩
        obtain ⟨r, last, rfl⟩ := Keyset.next_some found
        exact positions i r (Keyset.mem_items (List.mem_of_getLast? last)).1
      obtain ⟨fuel, pages, read, same, cursors⟩ := ih on
      refine ⟨fuel + 1, ⟨Keyset.items key (limit i) place (rows i), text k⟩ :: pages, ?_, ?_, ?_⟩
      · rw [readPages, answers i place start, found]
        dsimp only [Option.elim_some] at read ⊢
        rw [if_neg (nonempty k), read]
        rfl
      · rw [List.map_cons, same]
      · intro page member named
        rcases List.mem_cons.mp member with rfl | there
        · obtain ⟨r, last, rfl⟩ := Keyset.next_some found
          exact ⟨r, last, rfl⟩
        · exact cursors page there named

/-- The answers to a client are the pages of a table, for every position its cursors can name. -/
def Serves (P : Platform) (position : α → ListCursor) (rows : Nat → List α) (limit : Nat → Nat)
    (fetch : Nat → GoString → Except ListError (Page α)) : Prop :=
  ∀ i place, (∀ cursor, place = some cursor → Recorded P cursor) →
    fetch i (cursorText place) = .ok ⟨Keyset.items position (limit i) place (rows i),
      cursorText (Keyset.next position (limit i) place (rows i))⟩

theorem cursorText_elim (place : Option ListCursor) :
    cursorText place = place.elim [] encodeListCursor := by
  cases place with
  | none => rfl
  | some cursor => rfl

theorem Serves.answers {rows : Nat → List α} {limit : Nat → Nat}
    {fetch : Nat → GoString → Except ListError (Page α)}
    (serves : Serves P position rows limit fetch) :
    Answers position encodeListCursor (Recorded P) rows limit fetch := by
  intro i place valid
  rw [← cursorText_elim, ← cursorText_elim]
  exact serves i place valid

theorem Serves.reads {rows : Nat → List α} {limit : Nat → Nat}
    {fetch : Nat → GoString → Except ListError (Page α)} (serves : Serves P position rows limit fetch)
    (recorded : ∀ i, ∀ r ∈ rows i, Recorded P (position r)) {i : Nat} {lists : List (List α)}
    (reads : Keyset.Reads position rows limit i none lists) :
    ∃ fuel pages, readPages fetch fuel i [] = some pages ∧
      pages.map Page.items = lists ∧
      ∀ page ∈ pages, page.nextCursor ≠ [] →
        ∃ last, page.items.getLast? = some last ∧
          page.nextCursor = encodeListCursor (position last) := by
  refine serves.answers.reads (fun _ => encodeListCursor_ne_nil) recorded reads ?_
  rintro k ⟨⟩

end Client

section Rank

/-- A text as a number in base 256. -/
def value (id : GoString) : Nat := Nat.ofDigits 256 (id.reverse.map UInt8.toNat)

theorem value_cons (c : UInt8) (id : GoString) :
    value (c :: id) = value id + 256 ^ id.length * c.toNat := by
  unfold value
  rw [List.reverse_cons, List.map_append, Nat.ofDigits_append, List.length_map, List.length_reverse,
    List.map_singleton, Nat.ofDigits_singleton]

theorem value_lt (id : GoString) : value id < 256 ^ id.length := by
  unfold value
  have small := Nat.ofDigits_lt_base_pow_length (b := 256) (l := id.reverse.map UInt8.toNat)
    (by decide) (by
      intro d member
      obtain ⟨c, -, rfl⟩ := List.mem_map.mp member
      exact c.toNat_lt)
  rwa [List.length_map, List.length_reverse] at small

theorem value_mono {id id' : GoString} (length : id.length = id'.length) (lower : id < id') :
    value id < value id' := by
  induction id generalizing id' with
  | nil =>
      cases id' with
      | nil => exact absurd lower (List.lt_irrefl _)
      | cons d id' => cases length
  | cons c id ih =>
      cases id' with
      | nil => cases length
      | cons d id' =>
          have same : id.length = id'.length := by simpa using length
          rw [value_cons, value_cons, same]
          have small := value_lt id
          rw [same] at small
          rcases List.cons_lt_cons_iff.mp lower with less | ⟨rfl, less⟩
          · have step : c.toNat + 1 ≤ d.toNat := UInt8.lt_iff_toNat_lt.mp less
            have := Nat.mul_le_mul_left (256 ^ id'.length) step
            rw [Nat.mul_add, Nat.mul_one] at this
            omega
          · have := ih same less
            omega

def rank (cursor : ListCursor) : Nat := cursor.createdAt.toNat * 256 ^ 36 + value cursor.id

theorem rank_descends {P : Platform} (uuids : WritesUUIDs P) {cursor cursor' : ListCursor}
    (recorded : Recorded P cursor) (recorded' : Recorded P cursor') (lower : cursor' < cursor) :
    rank cursor' < rank cursor := by
  have length := (uuids cursor.id recorded.canonical).1
  have length' := (uuids cursor'.id recorded'.canonical).1
  have small := value_lt cursor'.id
  rw [length'] at small
  unfold rank
  rcases ListCursor.lt_iff.mp lower with earlier | ⟨same, less⟩
  · have positive := recorded'.positive
    have step : cursor'.createdAt.toNat + 1 ≤ cursor.createdAt.toNat := by omega
    have := Nat.mul_le_mul_right (256 ^ 36) step
    rw [Nat.add_mul, Nat.one_mul] at this
    omega
  · rw [same]
    exact Nat.add_lt_add_left (value_mono (length'.trans length.symm) less) _

end Rank

section Services

variable {P : Platform}

/-- The position that a request starts from. -/
def startOf (cursor : ListCursor) : Option ListCursor := if cursor.id = [] then none else some cursor

theorem startOf_all (cursor row : ListCursor) :
    ((startOf cursor).all fun cursor => before cursor row.createdAt row.id) =
      (cursor.id == [] || before cursor row.createdAt row.id) := by
  unfold startOf
  by_cases empty : cursor.id = []
  · simp [empty]
  · simp [empty]

theorem startOf_recorded (uuids : WritesUUIDs P) {cursor : ListCursor}
    (recorded : Recorded P cursor) : startOf cursor = some cursor := by
  have length := (uuids cursor.id recorded.canonical).1
  unfold startOf
  rw [if_neg]
  intro empty
  rw [empty] at length
  cases length

theorem pageLimit_pos (limit : Int) : 0 < pageLimit limit := by
  unfold pageLimit
  split
  · decide
  · omega

theorem listFiltered_ordered (db : Database) (filter : ImageList.RepositoryListFilter) :
    ImageList.listFiltered db filter =
      limited filter.limit (Keyset.ordered ImageList.position
        (startOf ⟨filter.beforeUnix, filter.beforeID⟩) (db.images.filter (filter.accepts db))) := by
  rw [← fetched_ordered]
  unfold ImageList.listFiltered
  congr 3
  funext v
  exact congrArg (· && filter.accepts db v)
    (startOf_all ⟨filter.beforeUnix, filter.beforeID⟩ (ImageList.position v)).symm

theorem repositoryListPage_ordered (db : Database) (limit beforeUnix : Int) (beforeID : GoString) :
    AliasList.repositoryListPage db limit beforeUnix beforeID =
      limited limit (Keyset.ordered AliasList.position (startOf ⟨beforeUnix, beforeID⟩) db.aliases) := by
  have all : db.aliases.filter (fun _ => true) = db.aliases := List.filter_true _
  rw [← all, ← fetched_ordered]
  unfold AliasList.repositoryListPage
  congr 3
  funext a
  rw [Bool.and_true]
  exact (startOf_all ⟨beforeUnix, beforeID⟩ (AliasList.position a)).symm

/-- The rows that a filter selects. -/
def selects (filter : ImageList.ListFilter) (db : Database) : List Image :=
  db.images.filter ((filter.toRepository 0).accepts db)

theorem search_first (db : Database) (filter : ImageList.ListFilter)
    (accepted : ImageList.validateListFilter filter = true) (first : filter.cursor = []) :
    ImageList.search P db filter = .ok (pageOf (pageLimit filter.limit) ImageList.position
      (ImageList.listFiltered db (filter.toRepository (pageLimit filter.limit)))) := by
  unfold ImageList.search
  rw [accepted, if_neg (by decide), if_pos first]

theorem search_after (db : Database) (filter : ImageList.ListFilter) {cursor : ListCursor}
    (accepted : ImageList.validateListFilter filter = true) (later : filter.cursor ≠ [])
    (decoded : decodeListCursor P filter.cursor = some cursor) :
    ImageList.search P db filter = .ok (pageOf (pageLimit filter.limit) ImageList.position
      (ImageList.listFiltered db { filter.toRepository (pageLimit filter.limit) with
        beforeUnix := cursor.createdAt, beforeID := cursor.id })) := by
  unfold ImageList.search
  rw [accepted, if_neg (by decide), if_neg later, decoded]

theorem search_serves (uuids : WritesUUIDs P) (db : Nat → Database) {filter : ImageList.ListFilter}
    (accepted : ImageList.validateListFilter filter = true) (limit : Nat → Int) :
    Serves P ImageList.position (fun i => selects filter (db i))
      (fun i => (pageLimit (limit i)).toNat)
      (fun i cursor => ImageList.search P (db i) { filter with cursor := cursor, limit := limit i }) := by
  intro i place valid
  cases place with
  | none =>
      have found := search_first (P := P) (db i)
        { filter with cursor := [], limit := limit i } accepted rfl
      refine found.trans ?_
      rw [listFiltered_ordered]
      exact congrArg Except.ok (pageOf_limited (pageLimit_pos (limit i)) none _)
  | some cursor =>
      have recorded := valid cursor rfl
      have found := search_after (P := P) (db i)
        { filter with cursor := encodeListCursor cursor, limit := limit i } accepted
        encodeListCursor_ne_nil (recorded.decodes uuids)
      refine found.trans ?_
      rw [listFiltered_ordered, startOf_recorded uuids recorded]
      exact congrArg Except.ok (pageOf_limited (pageLimit_pos (limit i)) (some cursor) _)

theorem listPage_first {db : Database} {limit : Int} : AliasList.listPage P db limit [] =
    .ok (pageOf (pageLimit limit) AliasList.position
      (AliasList.repositoryListPage db (pageLimit limit + 1) 0 [])) := rfl

theorem listPage_after {db : Database} {limit : Int} {rawCursor : GoString} {cursor : ListCursor}
    (later : rawCursor ≠ []) (short : rawCursor.length ≤ AliasList.maxCursorLength)
    (decoded : decodeListCursor P rawCursor = some cursor) : AliasList.listPage P db limit rawCursor =
    .ok (pageOf (pageLimit limit) AliasList.position
      (AliasList.repositoryListPage db (pageLimit limit + 1) cursor.createdAt cursor.id)) := by
  unfold AliasList.listPage
  rw [if_neg later, if_neg (not_lt.mpr short), decoded]

theorem listPage_serves (uuids : WritesUUIDs P) (db : Nat → Database) (limit : Nat → Int) :
    Serves P AliasList.position (fun i => (db i).aliases) (fun i => (pageLimit (limit i)).toNat)
      (fun i cursor => AliasList.listPage P (db i) (limit i) cursor) := by
  intro i place valid
  cases place with
  | none =>
      refine listPage_first.trans ?_
      rw [repositoryListPage_ordered]
      exact congrArg Except.ok (pageOf_limited (pageLimit_pos (limit i)) none _)
  | some cursor =>
      have recorded := valid cursor rfl
      refine (listPage_after encodeListCursor_ne_nil (recorded.short uuids)
        (recorded.decodes uuids)).trans ?_
      rw [repositoryListPage_ordered, startOf_recorded uuids recorded]
      exact congrArg Except.ok (pageOf_limited (pageLimit_pos (limit i)) (some cursor) _)

end Services

section Lossless

variable {α : Type} {P : Platform} {position : α → ListCursor}

/-- Pages that lose and repeat nothing of a table that is `rows i` at request number `i`. -/
structure Lossless (P : Platform) (position : α → ListCursor) (rows : Nat → List α)
    (pages : List (Page α)) : Prop where
  cursors : ∀ page ∈ pages, page.nextCursor ≠ [] →
    page.nextCursor.length ≤ AliasList.maxCursorLength ∧
      ∃ last, page.items.getLast? = some last ∧
        decodeListCursor P page.nextCursor = some (position last)
  decreasing : (pages.flatMap Page.items).Pairwise fun r s =>
    before (position r) (position s).createdAt (position s).id = true
  complete : ∀ cursor, (∀ i < pages.length, ∃ r ∈ rows i, position r = cursor) →
    (pages.flatMap Page.items).countP (fun r => (position r).id == cursor.id) = 1
  origin : ∀ r ∈ pages.flatMap Page.items, ∃ i < pages.length, r ∈ rows i
  bounded : ∀ positions : Finset ListCursor, (∀ i, ∀ r ∈ rows i, position r ∈ positions) →
    pages.length ≤ positions.card + 1

theorem countP_unique {rows : List α} {p : α → Bool} {r : α} (member : r ∈ rows)
    (holds : p r = true) (nodup : rows.Nodup) (only : ∀ s ∈ rows, p s = true → s = r) :
    rows.countP p = 1 := by
  have filtered : rows.filter p = [r] := by
    have distinct := nodup.filter p
    have alone : ∀ s ∈ rows.filter p, s = r := by
      intro s there
      exact only s (List.mem_of_mem_filter there) (List.of_mem_filter there)
    have kept : r ∈ rows.filter p := List.mem_filter.mpr ⟨member, holds⟩
    cases shape : rows.filter p with
    | nil =>
        rw [shape] at kept
        cases kept
    | cons first later =>
        rw [shape] at distinct alone
        have front := alone first List.mem_cons_self
        cases later with
        | nil => rw [front]
        | cons second rest =>
            have back := alone second (List.mem_cons_of_mem _ List.mem_cons_self)
            rw [front, back] at distinct
            exact absurd List.mem_cons_self (List.nodup_cons.mp distinct).1
  rw [List.countP_eq_length_filter, filtered, List.length_singleton]

/-- A client of such a service reads pages that lose and repeat nothing, and comes to an end. -/
theorem Serves.lossless {rows : Nat → List α} {limit : Nat → Nat}
    {fetch : Nat → GoString → Except ListError (Page α)} (serves : Serves P position rows limit fetch)
    (uuids : WritesUUIDs P) (positive : ∀ i, 0 < limit i)
    (recorded : ∀ i, ∀ r ∈ rows i, Recorded P (position r))
    (identified : ∀ i, Unique (fun r => (position r).id) (rows i)) :
    ∃ fuel pages, readPages fetch fuel 0 [] = some pages ∧ Lossless P position rows pages := by
  have unique : ∀ i, Unique position (rows i) := by
    intro i
    have ids := identified i
    have composed : (rows i).map (fun r => (position r).id) =
        ((rows i).map position).map ListCursor.id := by
      rw [List.map_map]
      rfl
    unfold Tables.Unique at ids ⊢
    rw [composed] at ids
    exact ids.of_map
  have descends : ∀ i j, ∀ r ∈ rows i, ∀ s ∈ rows j, position s < position r →
      rank (position s) < rank (position r) := by
    intro i j r here s there
    exact rank_descends uuids (recorded i r here) (recorded j s there)
  obtain ⟨lists, reads⟩ := Keyset.reads_exists limit rank descends 0
  obtain ⟨fuel, pages, read, rfl, cursors⟩ := serves.reads recorded reads
  have items : pages.flatMap Page.items = (pages.map Page.items).flatten := List.flatMap_def
  have decreasing := reads.decreasing unique
  refine ⟨fuel, pages, read, ?_, ?_, ?_, ?_, ?_⟩
  · intro page member named
    obtain ⟨last, ends, text⟩ := cursors page member named
    have held : last ∈ (pages.map Page.items).flatten := by
      rw [← items]
      exact List.mem_flatMap.mpr ⟨page, member, List.mem_of_getLast? ends⟩
    obtain ⟨j, -, row⟩ := reads.origin last held
    have valid := recorded _ last row
    rw [text]
    exact ⟨valid.short uuids, last, ends, valid.decodes uuids⟩
  · rw [items]
    exact decreasing.imp fun lower => before_iff.mpr lower
  · intro cursor there
    have throughout : ∀ j < (pages.map Page.items).length, ∃ r ∈ rows (0 + j), position r = cursor := by
      intro j short
      rw [Nat.zero_add]
      exact there j (by simpa using short)
    obtain ⟨r, member, same⟩ := reads.complete unique positive (by simp) throughout
    have distinct : Tables.Unique position (pages.map Page.items).flatten := by
      unfold Tables.Unique
      rw [List.nodup_iff_pairwise_ne, List.pairwise_map]
      exact decreasing.imp fun lower => lower.ne'
    rw [items]
    refine countP_unique member (by simp [same]) distinct.of_map ?_
    intro s other id
    obtain ⟨j, short, row⟩ := reads.origin s other
    obtain ⟨t, present, named⟩ := throughout j short
    have equal : s = t := (identified _).eq row present (by
      rw [named]
      exact eq_of_beq id)
    have positions : position s = position r := by rw [equal, named, same]
    exact distinct.eq other member positions
  · intro r member
    rw [items] at member
    obtain ⟨j, short, row⟩ := reads.origin r member
    rw [Nat.zero_add] at row
    exact ⟨j, by simpa using short, row⟩
  · intro positions within
    have := reads.bounded unique within
    rwa [List.length_map] at this

end Lossless

/-- Paging loses and repeats nothing, neither in the list of images nor in that of aliases. -/
theorem paging (P : Platform) (uuids : WritesUUIDs P) (db : Nat → Database)
    (images : ∀ i, ∀ v ∈ (db i).images, Recorded P (ImageList.position v))
    (aliases : ∀ i, ∀ a ∈ (db i).aliases, Recorded P (AliasList.position a)) (limit : Nat → Int) :
    (∀ filter, ImageList.validateListFilter filter = true →
      ∃ fuel pages, readPages (fun i cursor =>
          ImageList.search P (db i) { filter with cursor := cursor, limit := limit i }) fuel 0 [] =
        some pages ∧ Lossless P ImageList.position (fun i => selects filter (db i)) pages) ∧
    ∃ fuel pages, readPages (fun i cursor => AliasList.listPage P (db i) (limit i) cursor) fuel 0 [] =
      some pages ∧ Lossless P AliasList.position (fun i => (db i).aliases) pages := by
  have positive : ∀ i, 0 < (pageLimit (limit i)).toNat := by
    intro i
    have := pageLimit_pos (limit i)
    omega
  constructor
  · intro filter accepted
    refine (search_serves uuids db accepted limit).lossless uuids positive ?_ ?_
    · intro i v member
      exact images i v (List.mem_of_mem_filter member)
    · intro i
      exact (db i).imageIDs.filter _
  · exact (listPage_serves uuids db limit).lossless uuids positive aliases fun i => (db i).aliasIDs

section Sample

def uuidPlatform : Platform :=
  { samplePlatform with
    parseUUID := fun id =>
      if id.length = 36 ∧ id.all (fun c => isUUIDByte c) = true then some id else none }

theorem uuidPlatform_writes : WritesUUIDs uuidPlatform := by
  intro id canonical
  have accepted : (if id.length = 36 ∧ id.all (fun c => isUUIDByte c) = true then some id else none) =
      some id := eq_of_beq canonical
  split at accepted
  · rename_i written
    exact ⟨written.1, fun c member => of_decide_eq_true (List.all_eq_true.mp written.2 c member)⟩
  · cases accepted

def listedID (last : UInt8) : GoString := str "0190c0de-0000-7000-8000-00000000000" ++ [last]

def sampleID : GoString := listedID 0x61

/-- Two rows of one second and an older one, which is gone after the first page; a newer one is there by then. -/
def listedRows (i : Nat) : List (UInt8 × Int) :=
  [(0x61, 2), (0x62, 2), if i = 0 then (0x63, 1) else (0x64, 3)]

def listedImage (row : UInt8 × Int) : Image :=
  { sampleImage [0] (str "image/png") .isPublic with
    id := listedID row.1
    storageKey := listedID row.1
    createdAt := ofUnix row.2 }

def listedAlias (row : UInt8 × Int) : Alias :=
  ⟨listedID row.1, [slash, row.1], listedID row.1, str "admin", ofUnix row.2⟩

def listedDatabase (i : Nat) : Database where
  images := (listedRows i).map listedImage
  aliases := (listedRows i).map listedAlias
  admin := none
  sessions := []
  tokens := []
  imageIDs := by unfold listedRows Tables.Unique; split <;> decide +kernel
  storageKeys := by unfold listedRows Tables.Unique; split <;> decide +kernel
  checked := by unfold listedRows; split <;> decide +kernel
  aliasIDs := by unfold listedRows Tables.Unique; split <;> decide +kernel
  aliasPaths := by unfold listedRows Tables.Unique; split <;> decide +kernel
  aliasImages := by unfold listedRows; split <;> decide +kernel
  sessionIDs := List.nodup_nil
  sessionHashes := List.nodup_nil
  sessionAdmins := no_sessions
  tokenIDs := List.nodup_nil
  tokenHashes := List.nodup_nil

def anyFilter : ImageList.ListFilter :=
  ⟨0, [], [], ImageList.anyVisibility, [], [], none, none, 0, 0, 0, 0, 0, 0⟩

theorem listed_recorded {i : Nat} {row : UInt8 × Int} (listed : row ∈ listedRows i) :
    Recorded uuidPlatform ⟨unix (ofUnix row.2), listedID row.1⟩ := by
  revert row
  unfold listedRows
  split <;>
  · simp only [List.forall_mem_cons]
    exact ⟨⟨by decide +kernel, by decide, by decide⟩, ⟨by decide +kernel, by decide, by decide⟩,
      ⟨by decide +kernel, by decide, by decide⟩, by simp⟩

theorem listedImage_recorded (i : Nat) :
    ∀ v ∈ (listedDatabase i).images, Recorded uuidPlatform (ImageList.position v) := by
  intro v member
  obtain ⟨row, listed, rfl⟩ := List.mem_map.mp member
  exact listed_recorded listed

theorem listedAlias_recorded (i : Nat) :
    ∀ a ∈ (listedDatabase i).aliases, Recorded uuidPlatform (AliasList.position a) := by
  intro a member
  obtain ⟨row, listed, rfl⟩ := List.mem_map.mp member
  exact listed_recorded listed

/-- What a client is shown within so many requests is all that it is ever shown. -/
theorem lossless_shown {α β : Type} {P : Platform} {position : α → ListCursor} {rows : Nat → List α}
    {fetch : Nat → GoString → Except ListError (Page α)} {fuel : Nat} {f : Page α → β} {shown : List β}
    (read : (readPages fetch fuel 0 []).map (List.map f) = some shown)
    (ends : ∃ fuel pages, readPages fetch fuel 0 [] = some pages ∧ Lossless P position rows pages) :
    ∃ pages, readPages fetch fuel 0 [] = some pages ∧ pages.map f = shown ∧
      Lossless P position rows pages := by
  obtain ⟨pages, answered, same⟩ := Option.map_eq_some_iff.mp read
  obtain ⟨_, others, again, lossless⟩ := ends
  obtain rfl := readPages_agree answered again
  exact ⟨pages, answered, same, lossless⟩

/-- Pages of one row: the second begins at the other row of the same second. -/
theorem sample_paging :
    (∃ pages, readPages (fun i cursor => ImageList.search uuidPlatform (listedDatabase i)
          { anyFilter with cursor := cursor, limit := 1 }) 2 0 [] = some pages ∧
      pages.map (fun page => page.items.map Image.id) = [[listedID 0x62], [listedID 0x61]] ∧
      Lossless uuidPlatform ImageList.position (fun i => selects anyFilter (listedDatabase i)) pages) ∧
    ∃ pages, readPages (fun i cursor => AliasList.listPage uuidPlatform (listedDatabase i) 1 cursor)
          2 0 [] = some pages ∧
      pages.map (fun page => page.items.map Alias.id) = [[listedID 0x62], [listedID 0x61]] ∧
      Lossless uuidPlatform AliasList.position (fun i => (listedDatabase i).aliases) pages := by
  obtain ⟨images, aliases⟩ := paging uuidPlatform uuidPlatform_writes listedDatabase
    listedImage_recorded listedAlias_recorded fun _ => 1
  constructor
  · exact lossless_shown (by decide +kernel) (images anyFilter (by decide +kernel))
  · exact lossless_shown (by decide +kernel) aliases

end Sample

end ImageSilo.Listing
