import ImageSilo.Publication.Agreement

/-! While a call has rows in hand no row and no file of a row changes, so a rebuild ends with what `Build`
computes. -/
namespace ImageSilo.Publication

open Go Concurrent Storage Tables Delivery

variable {P : Platform} {requests : Nat → Request} {σ σ' : State} {ls : Nat → Ledger} {i : Nat}
  {a : Action} {c : Choice} {r : Response a} {l : Ledger} {id path : GoString}

/-- The rows of the table in the order in which `Build` goes through them. -/
def deliveryRowsOf (db : Database) : List DeliveryRow :=
  (Database.orderBy Image.id db.images).map deliveryRow

/-- The rest of the load gives what the whole load gives on the present state. -/
def Progress.builds (P : Platform) (σ : State) : Progress → Prop
  | .idle => True
  | .rows remaining L =>
      addRows (m := Id) (sizeIn σ.files.images) L remaining =
        addRows (m := Id) (sizeIn σ.files.images) Loading.start (deliveryRowsOf σ.database)
  | .ready L => σ.built P = .ok L

theorem addRows_congr {size size' : GoString → Except Error (Option Int)} {rows : List DeliveryRow}
    (same : ∀ row ∈ rows, size' row.storageKey = size row.storageKey) (L : Loading) :
    addRows (m := Id) size' L rows = addRows (m := Id) size L rows := by
  induction rows generalizing L with
  | nil => rfl
  | cons row rest ih =>
      have here := same row List.mem_cons_self
      unfold addRows
      simp only [bind, pure] at ih ⊢
      rw [here]
      cases size row.storageKey with
      | error e => rfl
      | ok s => exact ih (fun other member => same other (List.mem_cons_of_mem row member)) _

/-- What a rebuild has in hand depends on the tables and on the files of rows alone. -/
theorem Progress.builds.congr {p : Progress} (h : p.builds P σ) (reads : p.reads σ.database)
    (images : σ'.database.images = σ.database.images)
    (aliases : σ'.database.aliases = σ.database.aliases)
    (sizes : ∀ v ∈ σ.database.images,
      sizeIn σ'.files.images v.storageKey = sizeIn σ.files.images v.storageKey) :
    p.builds P σ' := by
  have rows : deliveryRowsOf σ'.database = deliveryRowsOf σ.database := by
    unfold deliveryRowsOf
    rw [images]
  have whole : ∀ L, addRows (m := Id) (sizeIn σ'.files.images) L (deliveryRowsOf σ'.database) =
      addRows (m := Id) (sizeIn σ.files.images) L (deliveryRowsOf σ.database) := by
    intro L
    rw [rows]
    refine addRows_congr ?_ L
    intro row member
    obtain ⟨v, known, rfl⟩ := mem_rows.mp member
    exact sizes v known
  cases p with
  | idle => trivial
  | rows remaining L =>
      unfold Progress.builds at h ⊢
      rw [whole, ← h]
      refine addRows_congr ?_ L
      intro row member
      obtain ⟨v, known, rfl⟩ := reads.1 row member
      exact sizes v known
  | ready L =>
      refine Eq.trans ?_ h
      change σ'.database.built P (sizeIn σ'.files.images) = σ.database.built P (sizeIn σ.files.images)
      rw [built_eq, built_eq, aliases]
      rw [show addRows (m := Id) (sizeIn σ'.files.images) Loading.start
        ((Database.orderBy Image.id σ'.database.images).map deliveryRow) = _ from whole Loading.start]
      rfl

/-- A statement that reads leaves the rows in hand, drops them, or fetches the present ones. -/
theorem statement_builds {q : Statement} {r : Except DatabaseError q.Value}
    (performed : σ.statement q c = some (r, σ')) (builds : l.progress.builds P σ) :
    (l.recordStatement P q r).progress = l.progress ∨
      (l.recordStatement P q r).progress.builds P σ := by
  unfold Ledger.recordStatement
  split
  case h_10 => split <;> exact .inl rfl
  case h_13 rows =>
    refine .inr ?_
    change addRows (m := Id) _ Loading.start rows = _
    rw [deliveryRows_reads performed]
    rfl
  case h_14 rows =>
    split
    · rename_i L inHand
      rw [inHand] at builds
      split
      · rename_i L' added
        refine .inr ?_
        change σ.database.built P (sizeIn σ.files.images) = .ok L'
        have loaded : addRows (m := Id) (sizeIn σ.files.images) Loading.start
            ((Database.orderBy Image.id σ.database.images).map deliveryRow) = .ok L := builds.symm
        rw [aliasRows_reads performed] at added
        rw [built_eq, loaded]
        exact added
      · exact .inr trivial
    · exact .inl rfl
  all_goals exact .inl rfl

/-- The answer of an opening is the size that `Build` would find. -/
theorem openImage_size {key : GoString} {files' : Files} {opened : Except OpenError Bytes}
    {s : Option Int} (performed : σ.files.perform P σ.clock (.openImage key) c = some (opened, files'))
    (readable : sizeIn σ.files.images key = .ok s) :
    opened = .error .failed ∨ (∃ content, opened = .ok content ∧ s = some (content.length : Int)) ∨
      (opened = .error .notExist ∧ s = none) := by
  unfold Files.perform at performed
  cases c with
  | normal =>
      simp only [Option.some.injEq, Prod.mk.injEq] at performed
      obtain ⟨rfl, -⟩ := performed
      unfold sizeIn at readable
      split at readable
      · cases readable
      · split at readable
        · rename_i content opened
          cases readable
          exact .inr (.inl ⟨content, opened, rfl⟩)
        · rename_i opened
          cases readable
          exact .inr (.inr ⟨opened, rfl⟩)
        · cases readable
  | fault =>
      simp only [Option.some.injEq, Prod.mk.injEq] at performed
      exact .inl performed.1.symm
  | _ => cases performed

theorem addRows_cons {size : GoString → Except Error (Option Int)} {row : DeliveryRow}
    {rest : List DeliveryRow} {L : Loading} {s : Option Int} (found : size row.storageKey = .ok s) :
    addRows (m := Id) size L (row :: rest) = addRows (m := Id) size (L.addRow row s) rest := by
  rw [addRows]
  simp only [bind]
  rw [found]

theorem opened_builds {row : DeliveryRow} {rest : List DeliveryRow} {L : Loading} {s : Option Int}
    (inHand : l.progress = .rows (row :: rest) L) (builds : l.progress.builds P σ)
    (found : sizeIn σ.files.images row.storageKey = .ok s) :
    (Progress.rows rest (L.addRow row s)).builds P σ := by
  rw [inHand] at builds
  refine Eq.trans ?_ builds
  rw [addRows_cons found]

theorem file_builds {b : FileAction} {r : b.Response} {files' : Files}
    (performed : σ.files.perform P σ.clock b c = some (r, files'))
    (readable : ∀ v ∈ σ.database.images, ∃ s, sizeIn σ.files.images v.storageKey = .ok s)
    (reads : l.progress.reads σ.database) (permitted : l.allowsFile b)
    (builds : l.progress.builds P σ) : (l.recordFile P b r).progress.builds P σ := by
  -- the key that is opened is the one of the first row in hand
  have found : ∀ key, b = .openImage key → ∀ row rest L, l.progress = .rows (row :: rest) L →
      key = row.storageKey ∧ ∃ s, sizeIn σ.files.images row.storageKey = .ok s := by
    rintro key rfl row rest L inHand
    rw [inHand] at reads
    obtain ⟨v, member, rfl⟩ := reads.1 row List.mem_cons_self
    refine ⟨?_, readable v member⟩
    rcases permitted with ⟨row', rest', L', same, rfl⟩ | ⟨idle, -⟩
    · rw [inHand] at same
      cases same
      rfl
    · rw [inHand] at idle
      cases idle
  unfold Ledger.recordFile
  split
  case h_12 key opened =>
    split
    · rename_i row rest L content inHand
      obtain ⟨rfl, s, size⟩ := found key rfl row rest L inHand
      rcases openImage_size performed size with failed | ⟨content', same, rfl⟩ | ⟨absent, -⟩
      · cases failed
      · cases same
        exact opened_builds inHand builds size
      · cases absent
    · rename_i row rest L inHand
      obtain ⟨rfl, s, size⟩ := found key rfl row rest L inHand
      rcases openImage_size performed size with failed | ⟨content', same, -⟩ | ⟨-, rfl⟩
      · cases failed
      · cases same
      · exact opened_builds inHand builds size
    · trivial
    · exact builds
  all_goals first
    | exact builds
    | (split <;> exact builds)

/-- What a call has in hand keeps leading to what `Build` computes. -/
theorem builds_step (h : ∀ j, (ls j).progress.builds P σ) (sound : Sound P requests σ ls)
    (readable : ∀ v ∈ σ.database.images, ∃ s, sizeIn σ.files.images v.storageKey = .ok s)
    (permitted : (ls i).permits P a) (performed : σ.perform P i a c = some (r, σ'))
    (spares : Spares σ ls i a) (j : Nat) :
    (Function.update ls i ((ls i).record P a r) j).progress.builds P σ' := by
  have frame := perform_frame performed
  have sizes : ∀ v ∈ σ.database.images,
      sizeIn σ'.files.images v.storageKey = sizeIn σ.files.images v.storageKey :=
    fun v member => row_size sound permitted performed spares member
  have same : (∀ q, a ≠ .statement q) → ∀ {p : Progress}, p.builds P σ → p.reads σ.database →
      p.builds P σ' := by
    intro other p builds reads
    have database := frame.database other
    exact builds.congr reads (by rw [database]) (by rw [database]) sizes
  by_cases self : j = i
  · rw [self, Function.update_self]
    have mine := h i
    have reads := sound.reads i
    have reads' := reads_step sound.reads sound.locks sound.coherent permitted performed i
    rw [Function.update_self] at reads'
    cases a with
    | statement q =>
        rcases (statement_change performed).shared permitted.2 with ⟨images, aliases⟩ | ⟨changing, same⟩
        · rcases statement_builds (P := P) performed mine with kept | builds
          · rw [Ledger.record, kept]
            exact mine.congr reads images aliases sizes
          · have readsHere : ((ls i).recordStatement P q r).progress.reads σ.database :=
              reads'.congr images.symm
            exact builds.congr readsHere images aliases sizes
        · rw [Ledger.record, same, (sound.coherent i).idle changing]
          trivial
    | file b =>
        obtain ⟨files, done, rfl⟩ := file_state performed
        refine same (by simp) (file_builds done readable reads permitted.2 mine) ?_
        exact file_progress r reads
    | sync s =>
        refine same (by simp) ?_ ?_
        · cases s with
          | endRebuild => trivial
          | _ => exact mine
        · cases s with
          | endRebuild => trivial
          | _ => exact reads
    | index s =>
        refine same (by simp) ?_ ?_
        · change ((ls i).recordIndex s).progress.builds P σ
          unfold Ledger.recordIndex
          split <;> first | exact mine | trivial
        · change ((ls i).recordIndex s).progress.reads σ.database
          unfold Ledger.recordIndex
          split <;> first | exact reads | trivial
    | newUUID => cases r <;> exact same (by simp) mine reads
    | _ => exact same (by simp) mine reads
  · rw [Function.update_of_ne self]
    cases a with
    | statement q =>
        rcases (statement_change performed).shared permitted.2 with ⟨images, aliases⟩ | ⟨changing, -⟩
        · exact (h j).congr (sound.reads j) images aliases sizes
        · rcases (sound.coherent j).rebuilding with idle | exclusive
          · rw [idle]
            trivial
          · exact absurd changing (sound.locks.alone exclusive)
    | _ => exact same (by simp) (h j) (sound.reads j)

section Snapshots

variable {L : Loading}

theorem describing_shows (d : Describing P σ L) (id : GoString) :
    Shows σ id (L.snapshot.targets.lookup id) := by
  cases there : L.snapshot.targets.lookup id with
  | none =>
      intro v member own whole
      rw [(d.target id _).mpr ⟨v, member, own, whole, rfl⟩] at there
      cases there
  | some t =>
      obtain ⟨v, member, own, whole, rfl⟩ := (d.target id t).mp there
      exact ⟨v, member, own, whole, names_loaded v⟩

theorem describing_root (d : Describing P σ L) : L.snapshot.aliases.lookup (str "/") = none := by
  cases there : L.snapshot.aliases.lookup (str "/") with
  | none => rfl
  | some id =>
      obtain ⟨-, -, -, -, root, -⟩ := (d.mapping _ id).mp there
      exact absurd rfl root

theorem describing_leads (d : Describing P σ L) (root : path ≠ str "/") :
    Leads σ path (L.snapshot.aliases.lookup path) := by
  cases there : L.snapshot.aliases.lookup path with
  | none =>
      intro m member same loads
      rw [(d.mapping path m.imageID).mpr ⟨m, member, same, rfl, root, loads⟩] at there
      cases there
  | some id =>
      obtain ⟨m, member, same, target, -, loads⟩ := (d.mapping path id).mp there
      exact ⟨m, member, same, target, loads⟩

end Snapshots

section Agreement

theorem Orderly.begin (request : Request) : Orderly (Ledger.begin request) := .inl rfl

theorem Orderly.step (h : Orderly l) {a : Action} {r : Response a} (permitted : l.permits P a) :
    Orderly (l.record P a r) := by
  cases a with
  | statement q =>
      by_cases reading : Reading q r
      · obtain ⟨_, _, _, _, _, _, eq⟩ := reading_frame (P := P) l reading
        rw [Ledger.record, eq]
        exact h
      · unfold Reading at reading
        split at reading
        case h_2 => exact .inr ⟨_, _, _, _, rfl⟩
        case h_8 => exact absurd trivial reading
        all_goals exact .inl rfl
  | index s =>
      have owes := recordIndex_owes l s
      refine .inl ?_
      rw [Ledger.record, owes]
      rcases h with single | ⟨id, t, path, other, pair⟩
      · rw [single]
        rfl
      · rw [pair]
        rfl
  | sync s =>
      obtain ⟨_, _, _, _, _, eq⟩ := recordSync_frame l s
      rw [Ledger.record, eq]
      exact h
  | file b =>
      obtain ⟨_, _, _, _, _, _, _, eq⟩ := recordFile_frame (P := P) l b r
      rw [Ledger.record, eq]
      exact h
  | newUUID => cases r <;> exact h
  | _ => exact h

/-- The index agrees with the tables and the files, debts taken into account. -/
structure Agreement (P : Platform) (σ : State) (ls : Nat → Ledger) : Prop where
  placed : Placed σ ls
  orderly : ∀ j, Orderly (ls j)
  readable : ∀ v ∈ σ.database.images, ∃ s, sizeIn σ.files.images v.storageKey = .ok s
  canonical : ∀ m ∈ σ.database.aliases, m.path ≠ str "/" → normalizeAliasPath P m.path = .ok m.path
  builds : ∀ j, (ls j).progress.builds P σ
  targets : Targets σ ls
  mappings : Mappings σ ls

theorem Agreement.begin (indexed : σ.Indexed P) :
    Agreement P σ fun j => Ledger.begin (requests j) := by
  obtain ⟨L, built, index⟩ := indexed
  have d := built_describes built
  refine ⟨.begin, fun j => .begin _, d.readable, d.canonical, fun _ => trivial, ⟨?_, ?_⟩,
    ⟨?_, ?_, ?_, ?_⟩⟩
  · intro id _
    rw [index]
    exact describing_shows d id
  · simp [Ledger.begin]
  · rw [index]
    exact describing_root d
  · intro path root _
    refine .inl ?_
    rw [index]
    exact describing_leads d root
  · simp [Ledger.begin]
  · simp [Ledger.begin]

/-- A snapshot of the present state replaces the index while nobody owes anything. -/
theorem Agreement.replace {L : Loading} (sound : Sound P requests σ ls)
    (rebuilds : (ls i).hold = .exclusive) (built : σ.built P = .ok L)
    (database : σ'.database = σ.database) (files : σ'.files = σ.files)
    (index : σ'.index = ⟨L.snapshot.targets, L.snapshot.aliases⟩) (owes : l.owes = []) :
    Targets σ' (Function.update ls i l) ∧ Mappings σ' (Function.update ls i l) := by
  have built' : σ'.built P = .ok L := by
    unfold State.built State.source
    rw [database, files]
    exact built
  have d := built_describes built'
  have free : ∀ j, (Function.update ls i l j).owes = [] := by
    intro j
    by_cases self : j = i
    · rw [self, Function.update_self]
      exact owes
    · rw [Function.update_of_ne self]
      by_contra owing
      exact sound.locks.alone rebuilds ((sound.coherent j).shared owing)
  refine ⟨⟨?_, ?_⟩, ⟨?_, ?_, ?_, ?_⟩⟩
  · intro id _
    rw [index]
    exact describing_shows d id
  · simp [free]
  · rw [index]
    exact describing_root d
  · intro path root _
    refine .inl ?_
    rw [index]
    exact describing_leads d root
  · simp [free]
  · simp [free]

/-- What holds of the file of every row, and of every file that a call describes in a new row, still
holds after a statement. -/
theorem rows_statement {Ok : Image → Prop} (rows : ∀ v ∈ σ.database.images, Ok v)
    (alike : ∀ v w : Image, w.storageKey = v.storageKey → w.storedSize = v.storedSize →
      w.storedSHA256 = v.storedSHA256 → Ok v → Ok w)
    {q : Statement} {r : Except DatabaseError q.Value} (permitted : (ls i).allows P q)
    (performed : σ.statement q c = some (r, σ'))
    (fresh : ∀ (v : Image) f, (ls i).placed = some (v.storageKey, f) → f.describe v → Ok v) :
    ∀ v ∈ σ'.database.images, Ok v := by
  have change := statement_change performed
  generalize σ'.database = db' at change
  intro w member
  cases change with
  | created v db' stored =>
      obtain ⟨-, -, -, -, f, mine, describes⟩ := permitted
      rw [(insertImage_some stored).1] at member
      rcases List.mem_append.mp member with old | new
      · exact rows w old
      · obtain rfl := List.mem_singleton.mp new
        exact alike v _ rfl rfl rfl (fresh v f mine describes)
  | imported v m db₁ db₂ stored mapped =>
      obtain ⟨-, -, -, -, ⟨f, mine, describes⟩, -⟩ := permitted
      rw [(insertAlias_some mapped).1, (insertImage_some stored).1] at member
      rcases List.mem_append.mp member with old | new
      · exact rows w old
      · obtain rfl := List.mem_singleton.mp new
        exact alike v _ rfl rfl rfl (fresh v f mine describes)
  | erased id row found => exact rows w (mem_removeImage.mp member).1
  | erasedUnseen id row found => exact rows w (mem_removeImage.mp member).1
  | shown id visibility row db' found replaced =>
      rcases mem_replaced replaced member with rfl | ⟨old, -⟩
      · exact alike row _ rfl rfl rfl (rows row (image?_some found).1)
      · exact rows w old
  | replaced v row db' found replaced =>
      obtain ⟨-, -, -, -, f, mine, describes⟩ := permitted
      rcases mem_replaced replaced member with rfl | ⟨old, -⟩
      · exact alike v _ rfl rfl rfl (fresh v f mine describes)
      · exact rows w old
  | aliased m db' present mapped =>
      rw [(insertAlias_some mapped).1] at member
      exact rows w member
  | unaliased id row found => exact rows w member
  | unaliasedUnseen id row found => exact rows w member
  | none q r db' reading images aliases =>
      rw [images] at member
      exact rows w member

theorem readable_statement (h : Agreement P σ ls) (sound : Sound P requests σ ls) {q : Statement}
    {r : Except DatabaseError q.Value} (permitted : (ls i).allows P q)
    (performed : σ.statement q c = some (r, σ')) :
    ∀ v ∈ σ'.database.images, ∃ s, sizeIn σ'.files.images v.storageKey = .ok s := by
  rw [(statement_files performed).1]
  refine rows_statement h.readable ?_ permitted performed ?_
  · intro v w key _ _ readable
    rwa [key]
  · exact fun v f mine describes => ⟨_, h.placed.whole sound mine describes⟩

theorem canonical_statement (h : Agreement P σ ls) {q : Statement}
    {r : Except DatabaseError q.Value} (permitted : (ls i).allows P q)
    (performed : σ.statement q c = some (r, σ')) :
    ∀ m ∈ σ'.database.aliases, m.path ≠ str "/" → normalizeAliasPath P m.path = .ok m.path := by
  have change := statement_change performed
  generalize σ'.database = db' at change
  intro m member root
  cases change with
  | created v db' stored =>
      rw [(insertImage_some stored).2.1] at member
      exact h.canonical m member root
  | imported v m' db₁ db₂ stored mapped =>
      rw [(insertAlias_some mapped).2.1, (insertImage_some stored).2.1] at member
      rcases List.mem_append.mp member with old | new
      · exact h.canonical m old root
      · obtain rfl := List.mem_singleton.mp new
        exact permitted.2.2.2.2.2.2.2.2
  | erased id row found => exact h.canonical m (mem_removeImage_aliases.mp member).1 root
  | erasedUnseen id row found => exact h.canonical m (mem_removeImage_aliases.mp member).1 root
  | shown id visibility row db' found replaced =>
      rw [(replaceImage_some replaced).2] at member
      exact h.canonical m member root
  | replaced v row db' found replaced =>
      rw [(replaceImage_some replaced).2] at member
      exact h.canonical m member root
  | aliased m' db' present mapped =>
      rw [(insertAlias_some mapped).2.1] at member
      rcases List.mem_append.mp member with old | new
      · exact h.canonical m old root
      · obtain rfl := List.mem_singleton.mp new
        exact permitted.2.2.2.2
  | unaliased id row found => exact h.canonical m (mem_removeAlias.mp member).1 root
  | unaliasedUnseen id row found => exact h.canonical m (mem_removeAlias.mp member).1 root
  | none q r db' reading images aliases =>
      rw [aliases] at member
      exact h.canonical m member root

/-- Only statements and index steps change what is owed. -/
theorem record_owes_same (l : Ledger) {a : Action} {r : Response a} (other : ∀ q, a ≠ .statement q)
    (other' : ∀ s, a ≠ .index s) : (l.record P a r).owes = l.owes := by
  cases a with
  | statement q => exact absurd rfl (other q)
  | index s => exact absurd rfl (other' s)
  | sync s =>
      obtain ⟨_, _, _, _, _, eq⟩ := recordSync_frame l s
      rw [Ledger.record, eq]
  | file b =>
      obtain ⟨_, _, _, _, _, _, _, eq⟩ := recordFile_frame (P := P) l b r
      rw [Ledger.record, eq]
  | newUUID => cases r <;> rfl
  | _ => rfl

/-- A step that is neither a statement nor an index step touches neither tables nor index. -/
theorem Agreement.aside (h : Agreement P σ ls) (sound : Sound P requests σ ls)
    (permitted : (ls i).permits P a) (performed : σ.perform P i a c = some (r, σ'))
    (spares : Spares σ ls i a) (idle : (ls i).owes = []) (other : ∀ q, a ≠ .statement q)
    (other' : ∀ s, a ≠ .index s) : Agreement P σ' (Function.update ls i ((ls i).record P a r)) := by
  have frame := perform_frame performed
  have database := frame.database other
  have index := frame.index other'
  have owes := record_owes_same (P := P) (r := r) (ls i) other other'
  have unmoved : ∀ id, Unmoved σ σ' id := Unmoved.refl (by rw [database]) fun v member =>
    row_whole sound permitted performed spares member
  refine ⟨h.placed.step sound permitted performed spares, ?_, ?_, ?_,
    builds_step h.builds sound h.readable permitted performed spares, ?_, ?_⟩
  · intro j
    by_cases self : j = i
    · rw [self, Function.update_self]
      exact (h.orderly i).step permitted
    · rw [Function.update_of_ne self]
      exact h.orderly j
  · intro v member
    rw [database] at member
    rw [row_size sound permitted performed spares member]
    exact h.readable v member
  · rw [database]
    exact h.canonical
  · refine h.targets.same unmoved (fun id => by rw [index]) ?_
    intro id s _
    rw [owes]
  · refine h.mappings.untouched ⟨fun path => by rw [index], fun id member => ?_⟩ idle
      (by rw [database]) (fun m _ _ => (unmoved m.imageID).loads) ?_
    · rwa [owes]
    · rw [owes, idle]
      simp

theorem Agreement.step (h : Agreement P σ ls) (sound : Sound P requests σ ls)
    (permitted : (ls i).permits P a) (performed : σ.perform P i a c = some (r, σ'))
    (spares : Spares σ ls i a) (plain : ∀ q, a = .statement q → c ≠ .interrupted)
    (mends : Mends σ a r) : Agreement P σ' (Function.update ls i ((ls i).record P a r)) := by
  have placed := h.placed.step sound permitted performed spares
  have builds := builds_step h.builds sound h.readable permitted performed spares
  have orderly : ∀ j, Orderly (Function.update ls i ((ls i).record P a r) j) := by
    intro j
    by_cases self : j = i
    · rw [self, Function.update_self]
      exact (h.orderly i).step permitted
    · rw [Function.update_of_ne self]
      exact h.orderly j
  cases a with
  | statement q =>
      exact ⟨placed, orderly, readable_statement h sound permitted.2 performed,
        canonical_statement h permitted.2 performed, builds,
        h.targets.statement sound h.placed permitted performed (plain q rfl),
        h.mappings.statement sound h.placed permitted performed (plain q rfl) mends⟩
  | index s =>
      cases performed
      have owes : ((ls i).recordIndex s).owes = (ls i).owes.tail := recordIndex_owes (ls i) s
      rcases permitted with ⟨rest, owed⟩ | ⟨idle, L, ready, rfl⟩
      · rw [owed, List.tail_cons] at owes
        have unmoved : ∀ id, Unmoved σ { σ with index := s.apply σ.index } id :=
          Unmoved.refl rfl fun v _ => Iff.rfl
        exact ⟨placed, orderly, h.readable, h.canonical, builds,
          h.targets.pay (h.orderly i) sound owed owes unmoved rfl,
          h.mappings.pay h.targets (h.orderly i) sound owed owes rfl
            (fun id => (unmoved id).loads) rfl⟩
      · have loaded := h.builds i
        rw [ready] at loaded
        rw [idle] at owes
        have rebuilds := (sound.coherent i).rebuilding.resolve_left (by rw [ready]; simp)
        let σ' : State := { σ with index := (IndexStep.replaceAll L.snapshot).apply σ.index }
        have index : σ'.index = ⟨L.snapshot.targets, L.snapshot.aliases⟩ := rfl
        have database : σ'.database = σ.database := rfl
        obtain ⟨targets, mappings⟩ := Agreement.replace sound rebuilds loaded database rfl index owes
        exact ⟨placed, orderly, h.readable, h.canonical, builds, targets, mappings⟩
  | sync s => exact h.aside sound permitted performed spares permitted.1 (by simp) (by simp)
  | file b => exact h.aside sound permitted performed spares permitted.1 (by simp) (by simp)
  | getTarget id => exact h.aside sound permitted performed spares permitted.1 (by simp) (by simp)
  | getAlias path => exact h.aside sound permitted performed spares permitted.1 (by simp) (by simp)
  | _ => exact h.aside sound permitted performed spares permitted (by simp) (by simp)

theorem Agreement.environment (h : Agreement P σ ls) (moved : σ.environment σ') :
    Agreement P σ' ls := by
  obtain ⟨t, -, rfl⟩ := moved
  exact ⟨⟨h.placed.there, h.placed.valid⟩, h.orderly, h.readable, h.canonical, h.builds,
    ⟨h.targets.settled, h.targets.owed⟩,
    ⟨h.mappings.root, h.mappings.settled, h.mappings.added, h.mappings.removed⟩⟩

end Agreement

end ImageSilo.Publication
