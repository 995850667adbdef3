import ImageSilo.Guarantees.Paging
import Mathlib.Data.List.TakeWhile

/-! A name that contains the query is found exactly when lowering by Unicode and by ASCII agree on the
query. -/
namespace ImageSilo.Listing

open Go Tables

section Names

/-- The characters that no stored name holds. -/
def excluded (r : Nat) : Bool := isControl r || r == 0x2f || r == 0x5c

theorem sanitized_runes {raw name : GoString} (sanitized : sanitizeOriginalName raw = name) :
    ∃ rs, name = encode rs ∧ (∀ r ∈ rs, Scalar r ∧ excluded r = false) ∧ rs.length ≤ 255 := by
  subst sanitized
  unfold sanitizeOriginalName
  have kept : ∀ r ∈ (runes (base (trimSpace raw))).filter
      (fun r => !(isControl r || r == 0x2f || r == 0x5c)), Scalar r ∧ excluded r = false := by
    intro r member
    obtain ⟨there, kept⟩ := List.mem_filter.mp member
    exact ⟨runes_scalar _ r there, by simpa [excluded] using kept⟩
  dsimp only
  split
  · refine ⟨[0x69, 0x6d, 0x61, 0x67, 0x65], rfl, ?_, by decide⟩
    intro r member
    simp only [List.mem_cons, List.not_mem_nil, or_false] at member
    rcases member with rfl | rfl | rfl | rfl | rfl <;> exact ⟨.inl (by decide), rfl⟩
  · exact ⟨_, rfl, fun r member => kept r (List.mem_of_mem_take member), List.length_take_le _ _⟩

/-- An ASCII byte of a text is a character of it. -/
theorem ascii_of_encode {rs : List Nat} (scalars : ∀ r ∈ rs, Scalar r) {b : UInt8}
    (ascii : b.toNat < 0x80) (member : b ∈ encode rs) : b.toNat ∈ rs := by
  obtain ⟨r, there, inside⟩ := List.mem_flatMap.mp member
  have low : r < 0x80 := by
    by_contra high
    have big := Sqlite.encodeRune_high (scalars r there) (not_lt.mp high) b inside
    omega
  have eq : encodeRune r = [r.toUInt8] := if_pos low
  rw [eq, List.mem_singleton] at inside
  rw [inside, toNat_byte (by omega)]
  exact there

/-- A query that could be a name is the name it is stored as. -/
theorem sanitized_query {query : GoString} (valid : utf8Valid (trimSpace query) = true)
    (nonempty : trimSpace query ≠ []) (dotless : trimSpace query ≠ str ".")
    (short : (runes (trimSpace query)).length ≤ 200)
    (plain : ∀ r ∈ runes (trimSpace query), excluded r = false) :
    sanitizeOriginalName query = trimSpace query := by
  generalize trimmed : trimSpace query = q at *
  obtain ⟨whole, scalars⟩ := encode_runes valid
  have slashless : slash ∉ q := by
    intro member
    rw [← whole] at member
    have there := ascii_of_encode scalars (by decide) member
    have := plain _ there
    cases this
  have last : base q = q := base_of_slashless nonempty slashless
  have kept : (runes q).filter (fun r => !(isControl r || r == 0x2f || r == 0x5c)) = runes q := by
    rw [List.filter_eq_self]
    intro r member
    have := plain r member
    unfold excluded at this
    rw [this]
    rfl
  unfold sanitizeOriginalName
  rw [trimmed, last]
  dsimp only
  rw [kept]
  have text : (runes q).flatMap encodeRune = q := whole
  rw [text, if_neg (not_or.mpr ⟨nonempty, dotless⟩), List.take_of_length_le (by omega), text]

end Names

section Pattern

theorem escapeCode_high {r : Nat} (high : 0x80 ≤ r) : Sqlite.escapeCode 0x5c r = [r] := by
  have percent : Sqlite.percent = 0x25 := rfl
  have underscore : Sqlite.underscore = 0x5f := rfl
  unfold Sqlite.escapeCode
  rw [if_neg]
  omega

theorem flatMap_self {s : GoString} {f : UInt8 → GoString} (same : ∀ b ∈ s, f b = [b]) :
    s.flatMap f = s := by
  induction s with
  | nil => rfl
  | cons b s ih =>
      rw [List.flatMap_cons, same b List.mem_cons_self,
        ih fun c member => same c (List.mem_cons_of_mem b member)]
      rfl

theorem escapeLike_ascii : ∀ r < 0x80,
    ImageList.escapeLike (encodeRune r) = encode (Sqlite.escapeCode 0x5c r) := by decide

theorem escapeLike_encode {rs : List Nat} (scalars : ∀ r ∈ rs, Scalar r) :
    ImageList.escapeLike (encode rs) = encode (rs.flatMap (Sqlite.escapeCode 0x5c)) := by
  induction rs with
  | nil => rfl
  | cons r rs ih =>
      have split : ImageList.escapeLike (encode (r :: rs)) =
          ImageList.escapeLike (encodeRune r) ++ ImageList.escapeLike (encode rs) := by
        simp only [ImageList.escapeLike_flatMap]
        exact List.flatMap_append
      have front : ImageList.escapeLike (encodeRune r) = encode (Sqlite.escapeCode 0x5c r) := by
        by_cases high : 0x80 ≤ r
        · have unchanged : ∀ b ∈ encodeRune r,
              (if b = 0x5c ∨ b = 0x25 ∨ b = 0x5f then [0x5c, b] else [b]) = [b] := by
            intro b member
            have big := Sqlite.encodeRune_high (scalars r List.mem_cons_self) high b member
            refine if_neg ?_
            rintro (rfl | rfl | rfl) <;> exact absurd big (by decide)
          rw [escapeCode_high high, ImageList.escapeLike_flatMap]
          exact (flatMap_self unchanged).trans (List.append_nil _).symm
        · exact escapeLike_ascii r (by omega)
      rw [split, front, ih fun s member => scalars s (List.mem_cons_of_mem r member),
        List.flatMap_cons, encode_append]

theorem map_seen_escaped (rs : List Nat) :
    (rs.flatMap (Sqlite.escapeCode 0x5c)).map Sqlite.seen =
      (rs.map Sqlite.seen).flatMap (Sqlite.escapeCode 0x5c) := by
  have one : ∀ r, (Sqlite.escapeCode 0x5c r).map Sqlite.seen =
      Sqlite.escapeCode 0x5c (Sqlite.seen r) := by
    intro r
    by_cases high : 0x80 ≤ r
    · have still : 0x80 ≤ Sqlite.seen r := by
        unfold Sqlite.seen
        split <;> omega
      rw [escapeCode_high high, escapeCode_high still]
      rfl
    · have ascii : ∀ r < 0x80, (Sqlite.escapeCode 0x5c r).map Sqlite.seen =
          Sqlite.escapeCode 0x5c (Sqlite.seen r) := by decide
      exact ascii r (by omega)
  rw [List.map_flatMap, List.flatMap_map]
  congr
  funext r
  exact one r

/-- What a query is compared with: the codes of its lower case. -/
def sought (q : List Nat) : List Nat := (q.map lower).map Sqlite.seen

theorem scalar_ascii {r : Nat} (small : r < 0x80) : Scalar r := .inl (by omega)

/-- A query matches a text that contains its lower case, up to the case of ASCII letters. -/
theorem likes_iff {q ts : List Nat} (scalars : ∀ r ∈ q, Scalar r) (positive : ∀ r ∈ q, 0 < r)
    (textScalars : ∀ r ∈ ts, Scalar r) (textPositive : ∀ r ∈ ts, 0 < r) :
    ImageList.likes (encode q) (encode ts) = true ↔
      ∃ part, part <:+: (ts.map Sqlite.lowerCode).map Sqlite.seen ∧
        List.Forall₂ (fun p c => Sqlite.sameCode p c = true) (sought q) part := by
  have lowered : ∀ r ∈ q.map lower, Scalar r := by
    intro r member
    obtain ⟨s, there, rfl⟩ := List.mem_map.mp member
    exact lower_scalar (scalars s there)
  have escaped : ∀ r ∈ (q.map lower).flatMap (Sqlite.escapeCode 0x5c), Scalar r ∧ r ≠ 0 := by
    intro r member
    obtain ⟨s, there, inside⟩ := List.mem_flatMap.mp member
    obtain ⟨t, source, rfl⟩ := List.mem_map.mp there
    have here := lower_pos (positive t source)
    unfold Sqlite.escapeCode at inside
    split at inside
    · simp only [List.mem_cons, List.not_mem_nil, or_false] at inside
      rcases inside with rfl | rfl
      · exact ⟨scalar_ascii (by decide), by decide⟩
      · exact ⟨lower_scalar (scalars t source), by omega⟩
    · rw [List.mem_singleton.mp inside]
      exact ⟨lower_scalar (scalars t source), by omega⟩
  have pattern : ImageList.pattern (encode q) =
      encode (0x25 :: (q.map lower).flatMap (Sqlite.escapeCode 0x5c) ++ [0x25]) := by
    unfold ImageList.pattern
    rw [toLower_encode scalars, escapeLike_encode lowered, encode_append]
    rfl
  have patternCodes : Sqlite.codes 0 (ImageList.pattern (encode q)) =
      Sqlite.percent :: (sought q).flatMap (Sqlite.escapeCode 0x5c) ++ [Sqlite.percent] := by
    rw [pattern, Sqlite.codes_encode]
    · rw [List.map_append, List.map_cons, map_seen_escaped]
      rfl
    · intro r member
      simp only [List.cons_append, List.mem_cons, List.mem_append, List.not_mem_nil, or_false] at member
      rcases member with rfl | inside | rfl
      · exact scalar_ascii (by decide)
      · exact (escaped r inside).1
      · exact scalar_ascii (by decide)
    · intro r member
      simp only [List.cons_append, List.mem_cons, List.mem_append, List.not_mem_nil, or_false] at member
      rcases member with rfl | inside | rfl
      · decide
      · exact (escaped r inside).2
      · decide
  have textCodes : Sqlite.codes 0 (Sqlite.lower (encode ts)) =
      (ts.map Sqlite.lowerCode).map Sqlite.seen := by
    rw [Sqlite.lower_encode textScalars, Sqlite.codes_encode]
    · intro r member
      obtain ⟨s, there, rfl⟩ := List.mem_map.mp member
      have := textScalars s there
      unfold Sqlite.lowerCode
      split
      · exact scalar_ascii (by omega)
      · exact this
    · intro r member
      obtain ⟨s, there, rfl⟩ := List.mem_map.mp member
      have := textPositive s there
      unfold Sqlite.lowerCode
      split <;> omega
  unfold ImageList.likes Sqlite.like
  rw [patternCodes, textCodes]
  exact Sqlite.matchesCodes_within (by decide) _ _

end Pattern

section Appearance

variable {P : Platform} {db : Database} {query : GoString} {v : Image}

/-- Whatever the sizes of the pages, the image is on one of the pages that a client reads. -/
def Appears (P : Platform) (db : Database) (query : GoString) (v : Image) : Prop :=
  ∀ limit : Nat → Int, ∃ fuel pages,
    readPages (fun i cursor => ImageList.search P db
      { anyFilter with query := query, cursor := cursor, limit := limit i }) fuel 0 [] = some pages ∧
    v ∈ pages.flatMap Page.items

theorem accepts_query : (({ anyFilter with query := query } : ImageList.ListFilter).toRepository
    0).accepts db v = (trimSpace query == [] || ImageList.queryMatches db (trimSpace query) v) := by
  simp [ImageList.RepositoryListFilter.accepts, ImageList.ListFilter.toRepository, anyFilter,
    ImageList.appendIntegerFilter]

theorem appears_of_matches (uuids : WritesUUIDs P)
    (accepted : ImageList.validateListFilter { anyFilter with query := query } = true)
    (recorded : ∀ v ∈ db.images, Recorded P (ImageList.position v)) (stored : v ∈ db.images)
    (found : ImageList.queryMatches db (trimSpace query) v = true) : Appears P db query v := by
  intro limit
  have positive : ∀ i, 0 < (pageLimit (limit i)).toNat := by
    intro i
    have := pageLimit_pos (limit i)
    omega
  obtain ⟨fuel, pages, read, lossless⟩ := (search_serves uuids (fun _ => db) accepted limit).lossless
    uuids positive (fun _ w member => recorded w (List.mem_of_mem_filter member))
    (fun _ => db.imageIDs.filter _)
  refine ⟨fuel, pages, read, ?_⟩
  have selected : v ∈ selects { anyFilter with query := query } db := by
    refine List.mem_filter.mpr ⟨stored, ?_⟩
    rw [accepts_query, found, Bool.or_true]
  have once := lossless.complete (ImageList.position v) fun _ _ => ⟨v, selected, rfl⟩
  obtain ⟨w, member, same⟩ := List.countP_pos_iff.mp (Nat.lt_of_lt_of_eq Nat.zero_lt_one once.symm)
  obtain ⟨i, -, row⟩ := lossless.origin w member
  have equal : w = v :=
    db.imageIDs.eq (List.mem_of_mem_filter row) stored (eq_of_beq same)
  rwa [← equal]

theorem mem_pageOf {limit : Int} {fetched : List Image}
    (member : v ∈ (pageOf limit ImageList.position fetched).items) : v ∈ fetched := by
  unfold pageOf at member
  split at member
  · exact List.mem_of_mem_take member
  · exact member

theorem mem_listFiltered {filter : ImageList.RepositoryListFilter}
    (member : v ∈ ImageList.listFiltered db filter) : filter.accepts db v = true := by
  rw [listFiltered_ordered] at member
  have ordered : v ∈ Keyset.ordered ImageList.position
      (startOf ⟨filter.beforeUnix, filter.beforeID⟩) (db.images.filter (filter.accepts db)) := by
    unfold limited at member
    split at member
    · exact member
    · exact List.mem_of_mem_take member
  exact List.of_mem_filter (Keyset.mem_ordered.mp ordered).1

theorem search_items {filter : ImageList.ListFilter} {page : Page Image}
    (answer : ImageList.search P db filter = .ok page) (member : v ∈ page.items) :
    (filter.toRepository 0).accepts db v = true := by
  unfold ImageList.search at answer
  split at answer
  · cases answer
  dsimp only at answer
  split at answer
  · cases answer
    have accepted := mem_listFiltered (mem_pageOf member)
    exact accepted
  · cases decoded : decodeListCursor P filter.cursor with
    | none =>
        rw [decoded] at answer
        cases answer
    | some cursor =>
        rw [decoded] at answer
        cases answer
        have accepted := mem_listFiltered (mem_pageOf member)
        exact accepted

theorem matches_of_appears (appears : Appears P db query v) (nonempty : trimSpace query ≠ []) :
    ImageList.queryMatches db (trimSpace query) v = true := by
  obtain ⟨fuel, pages, read, member⟩ := appears fun _ => 0
  obtain ⟨page, there, item⟩ := List.mem_flatMap.mp member
  obtain ⟨i, cursor, answer⟩ := readPages_answers read page there
  have accepted := search_items answer item
  change (({ anyFilter with query := query } : ImageList.ListFilter).toRepository 0).accepts db v =
    true at accepted
  rw [accepts_query, Bool.or_eq_true] at accepted
  rcases accepted with empty | found
  · exact absurd (eq_of_beq empty) nonempty
  · exact found

end Appearance

section Folding

/-- No character outside ASCII has a lower case of its own. -/
def FoldsPlainly (q : List Nat) : Prop := ∀ r ∈ q, 0x80 ≤ r → lower r = r

theorem lower_ascii {r : Nat} (small : r < 0x80) : lower r = Sqlite.lowerCode r := by
  have all : (List.range 0x80).all (fun r => lower r == Sqlite.lowerCode r) = true := by decide +kernel
  exact eq_of_beq (List.all_eq_true.mp all r (List.mem_range.mpr small))

theorem lowerCode_high {r : Nat} (high : 0x80 ≤ r) : Sqlite.lowerCode r = r := if_neg (by omega)

theorem sameCode_refl (c : Nat) : Sqlite.sameCode c c = true := by simp [Sqlite.sameCode]

theorem sought_plain {q : List Nat} (plain : FoldsPlainly q) :
    List.Forall₂ (fun p c => Sqlite.sameCode p c = true) (sought q)
      ((q.map Sqlite.lowerCode).map Sqlite.seen) := by
  unfold sought
  induction q with
  | nil => exact .nil
  | cons r q ih =>
      refine .cons ?_ (ih fun s member => plain s (List.mem_cons_of_mem r member))
      have same : lower r = Sqlite.lowerCode r := by
        by_cases high : 0x80 ≤ r
        · rw [plain r List.mem_cons_self high, lowerCode_high high]
        · exact lower_ascii (by omega)
      rw [same]
      exact sameCode_refl _

/-- A query that folds plainly matches every name it occurs in. -/
theorem likes_name {q ns : List Nat} (nonempty : q ≠ []) (plain : FoldsPlainly q)
    (scalars : ∀ r ∈ q, Scalar r) (positive : ∀ r ∈ q, 0 < r) (nameScalars : ∀ r ∈ ns, Scalar r)
    (namePositive : ∀ r ∈ ns, 0 < r) (occurs : encode q <:+: encode ns) :
    ImageList.likes (encode q) (encode ns) = true := by
  rw [likes_iff scalars positive nameScalars namePositive]
  refine ⟨_, ?_, sought_plain plain⟩
  exact ((encode_occurs nonempty scalars nameScalars occurs).map _).map _

/-- The code that a moved character is looked for as. -/
theorem sought_moved {q : List Nat} {r : Nat} (member : r ∈ q) (high : 0x80 ≤ r)
    (moved : lower r ≠ r) : lower r ∈ sought q := by
  obtain ⟨-, -, -, first, second⟩ := lower_moved high moved
  refine List.mem_map.mpr ⟨lower r, List.mem_map_of_mem member, ?_⟩
  unfold Sqlite.seen
  rw [if_neg]
  omega

/-- A query with a moved character does not match its own text. -/
theorem not_likes_self {q : List Nat} {r : Nat} (scalars : ∀ r ∈ q, Scalar r)
    (positive : ∀ r ∈ q, 0 < r) (member : r ∈ q) (high : 0x80 ≤ r) (moved : lower r ≠ r) :
    ImageList.likes (encode q) (encode q) = false := by
  rw [← Bool.not_eq_true, likes_iff scalars positive scalars positive]
  rintro ⟨part, occurs, all⟩
  have length := all.length_eq
  have whole : part = (q.map Sqlite.lowerCode).map Sqlite.seen := by
    refine occurs.eq_of_length ?_
    rw [← length]
    simp [sought]
  subst whole
  have each : ∀ s ∈ q, Sqlite.sameCode (Sqlite.seen (lower s))
      (Sqlite.seen (Sqlite.lowerCode s)) = true := by
    unfold sought at all
    rw [List.forall₂_map_left_iff, List.forall₂_map_left_iff, List.forall₂_map_right_iff,
      List.forall₂_map_right_iff, List.forall₂_same] at all
    exact all
  have here := each r member
  obtain ⟨-, first, second, third, fourth⟩ := lower_moved high moved
  rw [lowerCode_high high] at here
  have kept : Sqlite.seen r = r := if_neg (by omega)
  have kept' : Sqlite.seen (lower r) = lower r := if_neg (by omega)
  rw [kept, kept'] at here
  unfold Sqlite.sameCode at here
  have apart : (lower r == r) = false := beq_false_of_ne moved
  have outside : decide (r < 0x80) = false := decide_eq_false (by omega)
  rw [apart, outside] at here
  simp at here

/-- Hexadecimal digits and hyphens. -/
def isHexText (s : GoString) : Bool :=
  s.all fun c => (0x30 ≤ c && c ≤ 0x39) || (0x61 ≤ c && c ≤ 0x66) || (0x41 ≤ c && c ≤ 0x46) || c == 0x2d

/-- A query with a moved character matches no text of hexadecimal digits. -/
theorem not_likes_hex {q : List Nat} {r : Nat} (text : GoString) (scalars : ∀ r ∈ q, Scalar r)
    (positive : ∀ r ∈ q, 0 < r) (member : r ∈ q) (high : 0x80 ≤ r) (moved : lower r ≠ r)
    (hex : isHexText text = true) : ImageList.likes (encode q) text = false := by
  have digits : ∀ t ∈ text, (0x30 ≤ t.toNat ∧ t.toNat ≤ 0x39) ∨ (0x61 ≤ t.toNat ∧ t.toNat ≤ 0x66) ∨
      (0x41 ≤ t.toNat ∧ t.toNat ≤ 0x46) ∨ t.toNat = 0x2d := by
    intro t there
    have here := List.all_eq_true.mp hex t there
    simp only [Bool.or_eq_true, Bool.and_eq_true, decide_eq_true_eq, beq_iff_eq, byte_le,
      ← UInt8.toNat_inj] at here
    rcases here with ((digit | lower) | upper) | hyphen
    · exact .inl digit
    · exact .inr (.inl lower)
    · exact .inr (.inr (.inl upper))
    · exact .inr (.inr (.inr hyphen))
  have written : text = encode (text.map UInt8.toNat) := by
    unfold encode
    rw [List.flatMap_map]
    refine (flatMap_self ?_).symm
    intro t there
    have small : t.toNat < 0x80 := by
      have := digits t there
      omega
    unfold encodeRune
    rw [if_pos small]
    simp
  rw [written, ← Bool.not_eq_true, likes_iff scalars positive]
  · rintro ⟨part, occurs, all⟩
    obtain ⟨c, inside, same⟩ : ∃ c ∈ part, Sqlite.sameCode (lower r) c = true := by
      obtain ⟨i, bound, eq⟩ := List.getElem_of_mem (sought_moved member high moved)
      obtain ⟨length, each⟩ := List.forall₂_iff_get.mp all
      refine ⟨part.get ⟨i, by omega⟩, List.get_mem _ _, ?_⟩
      have here := each i bound (by omega)
      rwa [List.get_eq_getElem, eq] at here
    have there := occurs.subset inside
    rw [List.map_map, List.map_map] at there
    obtain ⟨t, source, rfl⟩ := List.mem_map.mp there
    have digit := digits t source
    obtain ⟨range, -⟩ := lower_moved high moved
    simp only [Function.comp_apply] at same
    generalize t.toNat = n at digit same
    generalize lower r = m at range same
    simp only [Sqlite.sameCode, Sqlite.seen, Sqlite.lowerCode, Bool.or_eq_true, Bool.and_eq_true,
      beq_iff_eq, decide_eq_true_eq] at same
    split_ifs at same <;> omega
  · intro t there
    obtain ⟨b, source, rfl⟩ := List.mem_map.mp there
    have := digits b source
    exact scalar_ascii (by omega)
  · intro t there
    obtain ⟨b, source, rfl⟩ := List.mem_map.mp there
    have := digits b source
    omega

end Folding

section Completeness

variable {P : Platform}

/-- Every image whose name contains the query is on one of its pages. -/
def FindsNames (P : Platform) (query : GoString) : Prop :=
  ∀ db : Database, (∀ v ∈ db.images, Recorded P (ImageList.position v)) →
    ∀ v ∈ db.images, (∃ raw, sanitizeOriginalName raw = v.originalName) →
      trimSpace query <:+: v.originalName → Appears P db query v

theorem not_excluded_pos {q : List Nat} (plain : ∀ r ∈ q, excluded r = false) : ∀ r ∈ q, 0 < r := by
  intro r member
  refine Nat.pos_of_ne_zero ?_
  rintro rfl
  exact absurd (plain 0 member) (by decide)

theorem runes_ne_nil {s : GoString} (valid : utf8Valid s = true) (nonempty : s ≠ []) :
    runes s ≠ [] := by
  intro empty
  have whole := (encode_runes valid).1
  rw [empty] at whole
  exact nonempty whole.symm

theorem queryMatches_name {db : Database} {query : GoString} {v : Image}
    (found : ImageList.likes query v.originalName = true) :
    ImageList.queryMatches db query v = true := by
  unfold ImageList.queryMatches
  rw [found]
  simp

/-- The image that a query with a moved character misses: its name is the query. -/
def namedImage (name id : GoString) : Image :=
  { sampleImage [0] (str "image/png") .isPublic with
    id := id
    originalName := name
    sourceSHA256 := Vector.replicate 32 0
    storedSHA256 := Vector.replicate 32 0 }

theorem namedImage_admissible (name id : GoString) : (namedImage name id).admissible = true :=
  show (sampleImage [0] (str "image/png") .isPublic).admissible = true by decide +kernel

def namedDatabase (name id : GoString) : Database :=
  Database.single (namedImage name id) [] (namedImage_admissible name id) List.nodup_nil
    List.nodup_nil (by simp)

theorem namedImage_missed {q : List Nat} {id : GoString} {r : Nat} (scalars : ∀ r ∈ q, Scalar r)
    (positive : ∀ r ∈ q, 0 < r) (member : r ∈ q) (high : 0x80 ≤ r) (moved : lower r ≠ r)
    (hex : isHexText id = true) :
    ImageList.queryMatches (namedDatabase (encode q) id) (encode q) (namedImage (encode q) id) =
      false := by
  have name := not_likes_self scalars positive member high moved
  have ids := not_likes_hex id scalars positive member high moved hex
  have digest := not_likes_hex (Sqlite.hex (Vector.replicate 32 (0 : UInt8)).toList)
    scalars positive member high moved (by decide +kernel)
  unfold ImageList.queryMatches
  simp only [namedImage, name, ids, digest, Bool.or_self, Bool.false_or]
  rfl

theorem canonical_hex (uuids : WritesUUIDs P) {id : GoString}
    (canonical : P.isCanonicalUUID id = true) : isHexText id = true := by
  unfold isHexText
  rw [List.all_eq_true]
  intro c member
  rcases (uuids id canonical).2 c member with digit | ⟨lower, upper⟩ | rfl
  · unfold Json.isDigit at digit
    rw [digit]
    rfl
  · simp [lower, upper]
  · rfl

theorem dot_plain : ∀ r ∈ runes (str "."), r < 0x80 := by decide

/-- A search finds every name that contains the query if and only if no character of the query
outside ASCII has a lower case of its own, or no name can contain the query at all. -/
theorem search_finds_iff (uuids : WritesUUIDs P) {id : GoString}
    (canonical : P.isCanonicalUUID id = true) {query : GoString}
    (valid : utf8Valid (trimSpace query) = true) (nonempty : trimSpace query ≠ [])
    (accepted : ImageList.validateListFilter { anyFilter with query := query } = true) :
    FindsNames P query ↔
      FoldsPlainly (runes (trimSpace query)) ∨
        ∃ r ∈ runes (trimSpace query), excluded r = true := by
  obtain ⟨whole, scalars⟩ := encode_runes valid
  have length : (runes (trimSpace query)).length ≤ 200 := by
    by_contra long
    simp only [ImageList.validateListFilter] at accepted
    rw [decide_eq_true (show (runes (trimSpace query)).length > 200 by omega)] at accepted
    simp at accepted
  have some := runes_ne_nil valid nonempty
  generalize same : runes (trimSpace query) = q at *
  constructor
  · intro finds
    by_contra neither
    rw [not_or] at neither
    obtain ⟨folded, none⟩ := neither
    unfold FoldsPlainly at folded
    push Not at folded none
    obtain ⟨r, member, high, moved⟩ := folded
    have plain : ∀ r ∈ q, excluded r = false := fun r there => Bool.eq_false_of_not_eq_true (none r there)
    have dotless : trimSpace query ≠ str "." := by
      intro dot
      rw [dot] at same
      have := dot_plain r (by rw [same]; exact member)
      omega
    have stored := sanitized_query valid nonempty dotless (by rw [same]; exact length)
      (by rw [same]; exact plain)
    have appears := finds (namedDatabase (encode q) id) ?_ (namedImage (encode q) id)
      (List.mem_singleton_self _) ⟨query, by rw [stored]; exact whole.symm⟩ ?_
    · have found := matches_of_appears appears nonempty
      rw [← whole, namedImage_missed scalars (not_excluded_pos plain) member high moved
        (canonical_hex uuids canonical)] at found
      cases found
    · intro v there
      rw [List.mem_singleton.mp there]
      exact ⟨canonical, show 0 < unix (ofUnix 1) by decide,
        show unix (ofUnix 1) ≤ 9223372036854775807 by decide⟩
    · rw [← whole]
      exact List.infix_refl _
  · intro condition db recorded v there sanitized occurs
    obtain ⟨raw, sanitized⟩ := sanitized
    obtain ⟨ns, name, allowed, -⟩ := sanitized_runes sanitized
    have nameScalars : ∀ r ∈ ns, Scalar r := fun r member => (allowed r member).1
    rw [name, ← whole] at occurs
    have part := encode_occurs some scalars nameScalars occurs
    have plain : ∀ r ∈ q, excluded r = false := fun r member => (allowed r (part.subset member)).2
    rcases condition with folded | ⟨r, member, bad⟩
    · refine appears_of_matches uuids accepted recorded there (queryMatches_name ?_)
      rw [name, ← whole]
      exact likes_name some folded scalars (not_excluded_pos plain) nameScalars
        (not_excluded_pos fun r member => (allowed r member).2) occurs
    · rw [plain r member] at bad
      cases bad

/-- The query and the name are one letter, a capital A with two dots. -/
theorem umlaut_missed : ¬ ∀ query, utf8Valid (trimSpace query) = true → trimSpace query ≠ [] →
    ImageList.validateListFilter { anyFilter with query := query } = true →
      FindsNames uuidPlatform query := by
  intro finds
  have appears := finds [0xc3, 0x84] (by decide +kernel) (by decide +kernel) (by decide +kernel)
    (namedDatabase [0xc3, 0x84] sampleID) ?_ (namedImage [0xc3, 0x84] sampleID)
    (List.mem_singleton_self _) ⟨[0xc3, 0x84], by decide +kernel⟩ ⟨[], [], by decide +kernel⟩
  · have found := matches_of_appears appears (by decide +kernel)
    revert found
    decide +kernel
  · intro v there
    rw [List.mem_singleton.mp there]
    exact ⟨by decide +kernel, by decide, by decide⟩

theorem search_finds_sample : FindsNames uuidPlatform (str "a") ↔
    FoldsPlainly (runes (trimSpace (str "a"))) ∨
      ∃ r ∈ runes (trimSpace (str "a")), excluded r = true :=
  search_finds_iff uuidPlatform_writes
    (show uuidPlatform.isCanonicalUUID sampleID = true by decide +kernel) (by decide +kernel)
    (by decide +kernel) (by decide +kernel)

end Completeness

end ImageSilo.Listing
