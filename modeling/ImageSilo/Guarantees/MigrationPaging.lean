import ImageSilo.Guarantees.Paging
import ImageSilo.MigrationImage.Cursor
import ImageSilo.MigrationImage.Removal
import Mathlib.Data.Int.Interval
import Mathlib.Data.Set.Finite.List

/-! The pages that follow each other show every file that stays listed once, the newest first. -/
namespace ImageSilo.Migrations

open Go Storage Delivery Listing Tables

variable {P : Platform}

section Order

/-- The pages descend by time, and ascend by path where the times agree. -/
def ListCursor.digits (cursor : ListCursor) : Int ×ₗ (List Nat)ᵒᵈ :=
  toLex (cursor.modifiedAt, OrderDual.toDual (cursor.path.map UInt8.toNat))

theorem ListCursor.digits_injective : Function.Injective ListCursor.digits := by
  intro first second same
  obtain ⟨modifiedAt, path⟩ := first
  obtain ⟨modifiedAt', path'⟩ := second
  obtain ⟨times, paths⟩ := Prod.mk.inj (toLex_inj.mp same)
  have inj : Function.Injective UInt8.toNat := fun a b same => UInt8.toNat_inj.mp same
  rw [ListCursor.mk.injEq]
  exact ⟨times, List.map_injective_iff.mpr inj (OrderDual.toDual_inj.mp paths)⟩

instance : LinearOrder ListCursor := LinearOrder.lift' _ ListCursor.digits_injective

theorem ListCursor.lt_iff {first second : ListCursor} :
    first < second ↔ first.modifiedAt < second.modifiedAt ∨
      (first.modifiedAt = second.modifiedAt ∧ second.path < first.path) := by
  rw [← map_toNat_lt]
  exact Prod.Lex.toLex_lt_toLex

def position (item : Image) : ListCursor := ⟨item.modifiedAt, item.path⟩

theorem position_lt {left right : Image} : position right < position left ↔ less left right = true := by
  rw [ListCursor.lt_iff, less_iff]
  unfold position
  rw [eq_comm]

theorem after_iff {cursor : ListCursor} {item : Image}
    (dated : -2 ^ 63 ≤ item.modifiedAt ∧ item.modifiedAt < 2 ^ 63) :
    after cursor item = true ↔ position item < cursor := by
  rw [ListCursor.lt_iff]
  simp only [after, unixNano_dated dated.1 dated.2, position, Bool.or_eq_true, Bool.and_eq_true,
    decide_eq_true_eq]

theorem dropWhile_filter {α : Type} {p : α → Bool} {rows : List α}
    (later : rows.Pairwise fun r s => p r = true → p s = true) :
    rows.dropWhile (fun r => !p r) = rows.filter p := by
  induction rows with
  | nil => rfl
  | cons r rows ih =>
      obtain ⟨here, rest⟩ := List.pairwise_cons.mp later
      cases holds : p r with
      | false =>
          rw [List.dropWhile_cons_of_pos (by simp [holds]), List.filter_cons_of_neg (by simp [holds])]
          exact ih rest
      | true =>
          rw [List.dropWhile_cons_of_neg (by simp [holds]), List.filter_cons_of_pos holds,
            List.filter_eq_self.mpr fun s member => here s member holds]

/-- What comes after a cursor is what lies below it. -/
theorem afterCursor_filter {items : List Image} {cursor : ListCursor}
    (sorted : items.Pairwise fun left right => less left right)
    (dated : ∀ item ∈ items, -2 ^ 63 ≤ item.modifiedAt ∧ item.modifiedAt < 2 ^ 63) :
    afterCursor items cursor = items.filter fun item => position item < cursor := by
  have same : items.filter (after cursor) = items.filter fun item => position item < cursor := by
    refine List.filter_congr fun item member => ?_
    rw [Bool.eq_iff_iff, after_iff (dated item member), decide_eq_true_eq]
  rw [← same]
  refine dropWhile_filter (sorted.imp_of_mem ?_)
  intro left right first second lower below
  rw [after_iff (dated left first)] at below
  rw [after_iff (dated right second)]
  exact (position_lt.mpr lower).trans below

end Order

section Pages

variable {items : List Image} {place : Option ListCursor} {limit : Nat}

theorem ordered_sorted (sorted : items.Pairwise fun left right => less left right) :
    Keyset.ordered position place items =
      items.filter fun item => place.all fun k => position item < k := by
  unfold Keyset.ordered
  refine List.Pairwise.insertionSort_eq ?_
  exact (sorted.filter _).imp fun lower => (position_lt.mpr lower).le

/-- A page of the part below a position. -/
theorem page_keyset {snapshot : Snapshot} {enabled : Bool}
    (sorted : items.Pairwise fun left right => less left right)
    (dated : ∀ item ∈ items, -2 ^ 63 ≤ item.modifiedAt ∧ item.modifiedAt < 2 ^ 63) :
    (page (items.filter fun item => place.all fun k => position item < k) limit snapshot enabled).items =
        Keyset.items position limit place items ∧
      (page (items.filter fun item => place.all fun k => position item < k) limit snapshot
        enabled).nextCursor.text = (Keyset.next position limit place items).elim [] encodeCursor := by
  have ordered := @ordered_sorted items place sorted
  rw [← ordered]
  unfold page Keyset.next
  by_cases long : limit < (Keyset.ordered position place items).length
  · rw [if_pos long, if_pos long]
    refine ⟨rfl, ?_⟩
    unfold Keyset.items
    dsimp only
    cases ends : ((Keyset.ordered position place items).take limit).getLast? with
    | none => rfl
    | some last =>
        have member : last ∈ items :=
          (Keyset.mem_ordered.mp (List.mem_of_mem_take (List.mem_of_getLast? ends))).1
        simp only [Option.map_some, Option.elim_some, Cursor.text, position,
          unixNano_dated (dated last member).1 (dated last member).2]
  · rw [if_neg long, if_neg long]
    refine ⟨?_, rfl⟩
    unfold Keyset.items
    rw [List.take_of_length_le (not_lt.mp long)]

end Pages

section Service

/-- The states of a service: it loads snapshots of the tree as it is by then, and takes deleted paths out
of the one it has. -/
inductive Reached (P : Platform) : Service → Prop
  | new (mutationsEnabled : Bool) : Reached P ⟨mutationsEnabled, none⟩
  | loaded {s : Service} (tree : Tree) (now : Time) (force : Bool) (reached : Reached P s) :
      Reached P (loadSnapshot P tree now force s).2
  | removed {s : Service} (canonicalPath : GoString) (reached : Reached P s) :
      Reached P (removeCachedPath s canonicalPath)

/-- The items are in order, and each is one of a tree that was scanned. -/
structure Listed (P : Platform) (snapshot : Snapshot) : Prop where
  sorted : snapshot.items.Pairwise fun left right => less left right
  entries : ∀ item ∈ snapshot.items, ∃ tree path, ItemOf P tree path item

theorem scan_listed (tree : Tree) (now : Time) : Listed P (scanSnapshot P tree now) where
  sorted := scan_sorted
  entries := by
    intro item member
    obtain ⟨path, -, found⟩ := mem_scan.mp member
    exact ⟨tree, path, itemOf_item? found⟩

theorem removed_items {s : Service} {canonicalPath : GoString} {snapshot : Snapshot}
    (held : snapshot ∈ (removeCachedPath s canonicalPath).snapshot) :
    ∃ before ∈ s.snapshot, snapshot.items = before.items.filter fun item => item.path != canonicalPath := by
  obtain ⟨before, there, rfl⟩ := Option.map_eq_some_iff.mp held
  exact ⟨before, there, rfl⟩

theorem Reached.listed {s : Service} (reached : Reached P s) :
    ∀ snapshot ∈ s.snapshot, Listed P snapshot := by
  induction reached with
  | new mutationsEnabled =>
      intro snapshot same
      cases same
  | loaded tree now force reached ih => exact (loadSnapshot_keeps (scan_listed tree now) ih).2
  | removed canonicalPath reached ih =>
      intro snapshot same
      obtain ⟨before, held, items⟩ := removed_items same
      have listed := ih before held
      refine ⟨?_, ?_⟩
      · rw [items]
        exact listed.sorted.filter _
      · intro item member
        rw [items] at member
        exact listed.entries item (List.mem_of_mem_filter member)

/-- What one request finds: the tree, the time, the limit it asks for and the service as it is by then. -/
structure Turn where
  tree : Tree
  now : Time
  limit : Int
  service : Service

/-- The snapshot that the request is answered from. -/
def Turn.used (P : Platform) (turn : Turn) : Snapshot :=
  (loadSnapshot P turn.tree turn.now false turn.service).1

/-- The items of that snapshot which match the filter. -/
def Turn.matching (P : Platform) (filter : ListFilter) (turn : Turn) : List Image :=
  (turn.used P).items.filter (accepts P filter)

/-- `Search` with the text of a cursor. -/
def Turn.answer (P : Platform) (filter : ListFilter) (turn : Turn) (cursor : GoString) :
    Except ListError (ImageSilo.Page Image) :=
  match (search P turn.tree turn.now
      { filter with limit := turn.limit, cursor := Cursor.ofText cursor } turn.service).1 with
  | some page => .ok ⟨page.items, page.nextCursor.text⟩
  | none => .error .invalidListFilter

/-- The modification times fit in 64 bits. -/
def Turn.Dated (P : Platform) (turn : Turn) : Prop :=
  ∀ item ∈ (turn.used P).items, -2 ^ 63 ≤ item.modifiedAt ∧ item.modifiedAt < 2 ^ 63

variable {filter : ListFilter} {turn : Turn}

theorem Turn.listed (reached : Reached P turn.service) : Listed P (turn.used P) :=
  (loadSnapshot_keeps (scan_listed turn.tree turn.now) reached.listed).1

theorem Turn.writable (reached : Reached P turn.service) (dated : turn.Dated P) {item : Image}
    (member : item ∈ turn.matching P filter) : (position item).Writable P := by
  have held := List.mem_of_mem_filter member
  obtain ⟨tree, path, spec⟩ := (Turn.listed reached).entries item held
  have writable := spec.writable (dated item held).1 (dated item held).2
  rwa [unixNano_dated (dated item held).1 (dated item held).2] at writable

theorem Turn.refuses (invalid : validListFilter filter = false) (cursor : GoString) :
    turn.answer P filter cursor = .error .invalidListFilter := by
  have same : validListFilter { filter with limit := turn.limit, cursor := Cursor.ofText cursor } =
      false := invalid
  unfold Turn.answer search
  rw [same]
  rfl

/-- The answer to a request with the cursor of a position, or with none. -/
theorem Turn.answers (reached : Reached P turn.service) (dated : turn.Dated P)
    (valid : validListFilter filter = true) {place : Option ListCursor}
    (written : ∀ cursor, place = some cursor → cursor.Writable P) :
    turn.answer P filter (place.elim [] encodeCursor) =
      .ok ⟨Keyset.items position (effectiveLimit turn.limit) place (turn.matching P filter),
        (Keyset.next position (effectiveLimit turn.limit) place (turn.matching P filter)).elim []
          encodeCursor⟩ := by
  have sorted := (Turn.listed reached).sorted.filter (accepts P filter)
  have within : ∀ item ∈ turn.matching P filter, -2 ^ 63 ≤ item.modifiedAt ∧ item.modifiedAt < 2 ^ 63 :=
    fun item member => dated item (List.mem_of_mem_filter member)
  have shown := @page_keyset _ place (effectiveLimit turn.limit) (turn.used P)
    (loadSnapshot P turn.tree turn.now false turn.service).2.mutationsEnabled sorted within
  have accepted : ∀ cursor,
      validListFilter { filter with limit := turn.limit, cursor := cursor } = true := fun _ => valid
  unfold Turn.answer search Turn.matching
  rw [accepted]
  simp only [Bool.not_true, Bool.false_eq_true, if_false]
  cases place with
  | none =>
      have all : ((turn.used P).items.filter (accepts P filter)).filter (fun item =>
          (none : Option ListCursor).all fun k => position item < k) =
          (turn.used P).items.filter (accepts P filter) := List.filter_eq_self.mpr fun _ _ => rfl
      rw [all] at shown
      rw [← shown.1, ← shown.2]
      rfl
  | some cursor =>
      have below := @afterCursor_filter _ cursor sorted within
      have part : ((turn.used P).items.filter (accepts P filter)).filter (fun item =>
          (some cursor).all fun k => position item < k) =
          afterCursor ((turn.used P).items.filter (accepts P filter)) cursor := below.symm
      rw [part] at shown
      rw [← shown.1, ← shown.2]
      have decoded := (written cursor rfl).decodes
      rw [(written cursor rfl).ofText] at decoded
      simp only [Option.elim_some, (written cursor rfl).ofText, decoded]
      rfl

end Service

section Client

variable {filter : ListFilter} {turns : Nat → Turn}

/-- Only finitely many positions can be told apart in a cursor. -/
theorem positions_finite : {cursor : ListCursor | cursor.Writable P}.Finite := by
  have finite : Finite UInt8 := Finite.of_injective UInt8.toFin fun a b same => UInt8.toFin_inj.mp same
  have times := Set.finite_Icc (-9223372036854775808 : Int) 9223372036854775807
  have paths := List.finite_length_le UInt8 maxAliasPathBytes
  refine ((times.prod paths).image fun pair => (⟨pair.1, pair.2⟩ : ListCursor)).subset ?_
  intro cursor writable
  obtain ⟨relativePath, normal⟩ := writable.normal
  obtain ⟨-, -, -, -, -, short, -⟩ := normalizeAliasPath_ok (normalizeImagePath_some normal).1
  exact ⟨(cursor.modifiedAt, cursor.path), ⟨⟨writable.low, writable.high⟩, short⟩, rfl⟩

/-- What a client has read once there is no cursor. -/
structure Complete (P : Platform) (filter : ListFilter) (turns : Nat → Turn)
    (pages : List (ImageSilo.Page Image)) : Prop where
  cursors : ∀ page ∈ pages, page.nextCursor ≠ [] →
    ∃ last, page.items.getLast? = some last ∧
      decodeCursor P (Cursor.ofText page.nextCursor) = some (position last)
  ordered : (pages.flatMap ImageSilo.Page.items).Pairwise fun left right => less left right = true
  found : ∀ item ∈ pages.flatMap ImageSilo.Page.items, ∃ i < pages.length, item ∈ (turns i).matching P filter
  once : ∀ cursor, (∀ i < pages.length, ∃ item ∈ (turns i).matching P filter, position item = cursor) →
    (pages.flatMap ImageSilo.Page.items).countP (fun item => position item = cursor) = 1
  distinct : (∀ i < pages.length, ∀ j < pages.length, ∀ item ∈ ((turns i).used P).items,
      ∀ item' ∈ ((turns j).used P).items, item.path = item'.path → item.modifiedAt = item'.modifiedAt) →
    ((pages.flatMap ImageSilo.Page.items).map Image.path).Nodup

theorem complete_of_reads (reached : ∀ i, Reached P (turns i).service)
    (dated : ∀ i, (turns i).Dated P) {pages : List (ImageSilo.Page Image)}
    (reads : Keyset.Reads position (fun i => (turns i).matching P filter)
      (fun i => effectiveLimit (turns i).limit) 0 none (pages.map ImageSilo.Page.items))
    (cursors : ∀ page ∈ pages, page.nextCursor ≠ [] → ∃ last, page.items.getLast? = some last ∧
      page.nextCursor = encodeCursor (position last)) : Complete P filter turns pages := by
  have items : pages.flatMap ImageSilo.Page.items = (pages.map ImageSilo.Page.items).flatten := List.flatMap_def
  have unique : ∀ i, Tables.Unique position ((turns i).matching P filter) := by
    intro i
    unfold Tables.Unique
    rw [List.nodup_iff_pairwise_ne, List.pairwise_map]
    exact ((Turn.listed (reached i)).sorted.filter _).imp fun lower => (position_lt.mpr lower).ne'
  have decreasing := reads.decreasing unique
  have origin : ∀ item ∈ pages.flatMap ImageSilo.Page.items,
      ∃ i < pages.length, item ∈ (turns i).matching P filter := by
    intro item member
    rw [items] at member
    obtain ⟨i, short, row⟩ := reads.origin item member
    rw [Nat.zero_add] at row
    exact ⟨i, by simpa using short, row⟩
  have separate : Tables.Unique position (pages.flatMap ImageSilo.Page.items) := by
    unfold Tables.Unique
    rw [items, List.nodup_iff_pairwise_ne, List.pairwise_map]
    exact decreasing.imp fun lower => lower.ne'
  refine ⟨?_, ?_, origin, ?_, ?_⟩
  · intro page member named
    obtain ⟨last, ends, text⟩ := cursors page member named
    obtain ⟨i, -, row⟩ := origin last (List.mem_flatMap.mpr ⟨page, member, List.mem_of_getLast? ends⟩)
    rw [text]
    exact ⟨last, ends, (Turn.writable (reached i) (dated i) row).decodes⟩
  · rw [items]
    exact decreasing.imp fun lower => position_lt.mp lower
  · intro cursor there
    have throughout : ∀ i < (pages.map ImageSilo.Page.items).length,
        ∃ item ∈ (turns (0 + i)).matching P filter, position item = cursor := by
      intro i short
      rw [Nat.zero_add]
      exact there i (by simpa using short)
    have positive : ∀ i, 0 < effectiveLimit (turns i).limit := fun i => effectiveLimit_pos _
    obtain ⟨item, member, same⟩ := reads.complete unique positive (by simp) throughout
    rw [← items] at member
    refine countP_unique member (by simp [same]) separate.of_map ?_
    intro other there named
    exact separate.eq there member ((of_decide_eq_true named).trans same.symm)
  · intro stable
    rw [List.nodup_iff_pairwise_ne, List.pairwise_map]
    have apart := List.pairwise_map.mp (List.nodup_iff_pairwise_ne.mp separate)
    refine apart.imp_of_mem ?_
    intro left right first second differ same
    obtain ⟨i, short, row⟩ := origin left first
    obtain ⟨j, short', row'⟩ := origin right second
    have times := stable i short j short' left (List.mem_of_mem_filter row) right
      (List.mem_of_mem_filter row') same
    exact differ (by rw [position, position, times, same])

end Client

/-- Paging through the migration images loses and repeats nothing. -/
theorem migration_paging (P : Platform) (filter : ListFilter) (turns : Nat → Turn)
    (reached : ∀ i, Reached P (turns i).service) (dated : ∀ i, (turns i).Dated P) :
    (validListFilter filter = true →
      ∃ fuel pages, Listing.readPages (fun i => (turns i).answer P filter) fuel 0 [] = some pages ∧
        Complete P filter turns pages) ∧
    (validListFilter filter = false →
      ∀ i cursor, (turns i).answer P filter cursor = .error .invalidListFilter) := by
  constructor
  · intro valid
    have positions : ∀ i, ∀ item ∈ (turns i).matching P filter, (position item).Writable P :=
      fun i item member => Turn.writable (reached i) (dated i) member
    have answers : Answers position encodeCursor (ListCursor.Writable P)
        (fun i => (turns i).matching P filter) (fun i => effectiveLimit (turns i).limit)
        fun i => (turns i).answer P filter :=
      fun i place written => Turn.answers (reached i) (dated i) valid written
    obtain ⟨lists, reads⟩ := Keyset.reads_exists_within (fun i => effectiveLimit (turns i).limit)
      positions_finite positions 0
    obtain ⟨fuel, pages, read, rfl, cursors⟩ := answers.reads (fun _ => encodeCursor_ne_nil) positions
      reads (by simp)
    exact ⟨fuel, pages, read, complete_of_reads reached dated reads cursors⟩
  · intro invalid i cursor
    exact Turn.refuses invalid cursor

section Sample

/-- Two images of one time. -/
def pairTree : Tree where
  node :=
    [(⟨[str "a.png"], .regular Processor.pngSignature 0⟩ : (_ : TreePath) × TreeNode),
      ⟨[str "b.png"], .regular Processor.pngSignature 0⟩].toFinmap
  named := by decide
  rooted := by decide

def pairService : Service := (loadSnapshot sniffingPlatform pairTree 0 false ⟨true, none⟩).2

/-- The first image is deleted when it has been shown. -/
def pairTurn (i : Nat) : Turn :=
  ⟨pairTree, 0, 1, if i = 0 then pairService else removeCachedPath pairService (str "/a.png")⟩

theorem pairTurn_reached (i : Nat) : Reached sniffingPlatform (pairTurn i).service := by
  have loaded : Reached sniffingPlatform pairService := .loaded pairTree 0 false (.new true)
  unfold pairTurn
  dsimp only
  split
  · exact loaded
  · exact .removed (str "/a.png") loaded

theorem pairTurn_dated (i : Nat) : (pairTurn i).Dated sniffingPlatform := by
  have scanned : ∀ item ∈ (scanSnapshot sniffingPlatform pairTree 0).items,
      -2 ^ 63 ≤ item.modifiedAt ∧ item.modifiedAt < 2 ^ 63 := by
    intro item member
    obtain ⟨path, -, found⟩ := mem_scan.mp member
    obtain ⟨content, entry, -⟩ := (itemOf_item? found).file
    have keys : pairTree.node.keys = {[str "a.png"], [str "b.png"]} := rfl
    have key := Tree.mem_keys entry
    rw [keys, Finset.mem_insert, Finset.mem_singleton] at key
    have time : item.modifiedAt = 0 := by
      rcases key with rfl | rfl
      · injection Option.some.inj entry with _ same
        exact same.symm
      · injection Option.some.inj entry with _ same
        exact same.symm
    rw [time]
    decide
  have keeps := fun s => @loadSnapshot_keeps sniffingPlatform pairTree s 0
    (fun snapshot => ∀ item ∈ snapshot.items, -2 ^ 63 ≤ item.modifiedAt ∧ item.modifiedAt < 2 ^ 63)
    false scanned
  have first := (keeps ⟨true, none⟩ (by rintro snapshot ⟨⟩)).2
  refine (keeps (pairTurn i).service ?_).1
  intro snapshot held
  unfold pairTurn at held
  dsimp only at held
  split at held
  · exact first snapshot held
  · obtain ⟨before, there, items⟩ := removed_items held
    intro item member
    rw [items] at member
    exact first before there item (List.mem_of_mem_filter member)

theorem migration_paging_sample : ∃ fuel pages,
    Listing.readPages (fun i => (pairTurn i).answer sniffingPlatform ⟨0, .empty, [], [], 0, 0⟩) fuel 0 [] =
        some pages ∧
      Complete sniffingPlatform ⟨0, .empty, [], [], 0, 0⟩ pairTurn pages :=
  (migration_paging sniffingPlatform ⟨0, .empty, [], [], 0, 0⟩ pairTurn pairTurn_reached
    pairTurn_dated).1 rfl

end Sample

end ImageSilo.Migrations
