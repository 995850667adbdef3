import ImageSilo.Concurrent.Solo
import ImageSilo.Guarantees.Inspection
import ImageSilo.Publication.Soundness

/-! `Daily` corrects its inspection by what it removes and does not look again. -/
namespace ImageSilo

open Go Concurrent Storage Tables Publication

section Listing

variable {d d' : Directory}

theorem entryOf_key (key : GoString) (entry : Entry) : (entryOf key entry).key = key := by
  unfold entryOf
  split <;> rfl

theorem listDirectory_keys (d : Directory) : (listDirectory d).map FileEntry.key = d.keys.sort := by
  unfold listDirectory
  rw [List.map_filterMap]
  have same : ∀ key ∈ d.keys.sort,
      ((d.lookup key).map (entryOf key)).map FileEntry.key = some key := by
    intro key member
    obtain ⟨entry, there⟩ := Option.isSome_iff_exists.mp
      (Finmap.lookup_isSome.mpr (Finmap.mem_keys.mp ((Finset.mem_sort _).mp member)))
    rw [there]
    exact congrArg some (entryOf_key key entry)
  rw [List.filterMap_congr same]
  exact List.filterMap_some

theorem listDirectory_nodup (d : Directory) : ((listDirectory d).map FileEntry.key).Nodup := by
  rw [listDirectory_keys]
  exact Finset.sort_nodup _ _

/-- The listing of a directory that has lost some entries. -/
theorem listDirectory_filter {gone : GoString → Bool}
    (left : ∀ key, d'.lookup key = if gone key then none else d.lookup key) :
    listDirectory d' = (listDirectory d).filter fun e => !gone e.key := by
  have keys : d'.keys.sort = d.keys.sort.filter fun key => !gone key := by
    refine List.Perm.eq_of_pairwise' (Finset.pairwise_sort _ _) ((Finset.pairwise_sort _ _).filter _) ?_
    refine (List.perm_ext_iff_of_nodup (Finset.sort_nodup _ _) ((Finset.sort_nodup _ _).filter _)).mpr ?_
    intro key
    rw [Finset.mem_sort, List.mem_filter, Finset.mem_sort, Finmap.mem_keys, Finmap.mem_keys,
      ← Finmap.lookup_isSome, ← Finmap.lookup_isSome, left]
    cases gone key <;> simp
  unfold listDirectory
  rw [keys, List.filterMap_filter, List.filter_filterMap]
  refine List.filterMap_congr fun key _ => ?_
  rw [left]
  cases there : d.lookup key with
  | none => cases gone key <;> simp
  | some entry => cases lost : gone key <;> simp [Option.filter, entryOf_key, lost]

end Listing

section Removals

variable {P : Platform} {σ σ' : State} {i : Nat} {answers : List (Answer Response)} {folder : Folder}
  {key : GoString}

/-- All goes well, except that files may resist their removal. -/
def OnlyRemovalsFail (a : Action) (c : Choice) : Prop :=
  c = .normal ∨ ∃ folder key, a = .file (.remove folder key)

/-- What is stored. -/
def stored (σ : State) : Database × Files := (σ.database, σ.files)

theorem stored_unmoved {σ σ' : State} (moved : State.environment σ σ') : stored σ' = stored σ := by
  obtain ⟨t, -, rfl⟩ := moved
  rfl

/-- The answer to a removal of this file that succeeded. -/
def succeeds (folder : Folder) (key : GoString) : Answer Response → Bool
  | ⟨.file (.remove folder' key'), r⟩ =>
      decide (folder' = folder) && key' == key && (r : Except Error Unit).isOk
  | _ => false

def removed (answers : List (Answer Response)) (folder : Folder) (key : GoString) : Bool :=
  answers.any (succeeds folder key)

theorem removed_append (first second : List (Answer Response)) (folder : Folder) (key : GoString) :
    removed (first ++ second) folder key = (removed first folder key || removed second folder key) :=
  List.any_append

/-- A program that asks for no removal of this folder removes nothing there. -/
theorem unremoved {α : Type} {p : Call α} {v : α} {asked : Action → Prop}
    (solo : (machine P).Solo i OnlyRemovalsFail p σ answers v σ') (only : p.Only asked)
    (never : ∀ a key, asked a → a ≠ .file (.remove folder key)) : removed answers folder key = false := by
  refine List.any_eq_false.mpr fun answer member => ?_
  have other := never answer.1 key (solo.only only answer member)
  obtain ⟨a, r⟩ := answer
  unfold succeeds
  split
  · rename_i folder' key' r' same
    cases same
    simp only [Bool.and_eq_true, decide_eq_true_eq, beq_iff_eq]
    rintro ⟨⟨rfl, rfl⟩, -⟩
    exact other rfl
  · simp

/-- One removal. -/
theorem removeKey_solo {r : Except Error Unit}
    (solo : (machine P).Solo i OnlyRemovalsFail (removeKey folder key) σ answers r σ') :
    σ'.database = σ.database ∧
      σ'.files = (if r.isOk then σ.files.drop folder key else σ.files) ∧
      (∀ folder' key', removed answers folder' key' =
        (decide (folder = folder') && key == key' && r.isOk)) ∧
      (removed answers folder key = true ∨ validKey key = false ∨
        ∃ e, (⟨.file (.remove folder key), .error e⟩ : Answer Response) ∈ answers) := by
  unfold removeKey at solo
  split at solo
  · obtain ⟨rfl, rfl, kept⟩ := Machine.Solo.pure stored stored_unmoved solo
    rename_i invalid
    refine ⟨congrArg Prod.fst kept, congrArg Prod.snd kept, fun folder' key' => ?_, .inr (.inl ?_)⟩
    · exact (Bool.and_false _).symm
    · simpa using invalid
  · obtain ⟨rfl, c, σ₁, σ₂, -, before, performed, after⟩ :=
      Machine.Solo.perform stored stored_unmoved solo
    obtain ⟨files, done, rfl⟩ := file_state (i := i) performed
    have database : σ'.database = σ.database := by
      exact (congrArg Prod.fst after).trans (congrArg Prod.fst before)
    have files_before : σ₁.files = σ.files := congrArg Prod.snd before
    have files_after : σ'.files = files := congrArg Prod.snd after
    have single : ∀ folder' key', removed [⟨.file (.remove folder key), r⟩] folder' key' =
        (decide (folder = folder') && key == key' && r.isOk) := fun _ _ => Bool.or_false _
    refine ⟨database, ?_, single, ?_⟩
    · rw [files_after, ← files_before]
      cases c <;> cases done <;> rfl
    · cases r with
      | ok u =>
          refine .inl ?_
          rw [single]
          simp [Except.isOk, Except.toBool]
      | error e => exact .inr (.inr ⟨e, List.mem_singleton_self _⟩)

variable {referenced : GoString → Bool} {cutoff : Time} {entries : List FileEntry} {cleaned : Cleaned}

/-- What a removal loop takes. -/
def stale (referenced : GoString → Bool) (cutoff : Time) (e : FileEntry) : Bool :=
  !(referenced e.key || !e.regular || cutoff < e.modifiedAt)

/-- The stale ones of these entries have been taken away, or have resisted. -/
structure Taken (folder : Folder) (entries : List FileEntry) (stale : FileEntry → Bool) (σ σ' : State)
    (answers : List (Answer Response)) (cleaned : Cleaned) : Prop where
  here : ∀ key, (σ'.files.directory folder).lookup key =
    if removed answers folder key then none else (σ.files.directory folder).lookup key
  within : ∀ key, removed answers folder key = true → ∃ e ∈ entries, e.key = key ∧ stale e = true
  tried : ∀ e ∈ entries, stale e = true → removed answers folder e.key = true ∨
    validKey e.key = false ∨ ∃ r, (⟨.file (.remove folder e.key), .error r⟩ : Answer Response) ∈ answers
  count : cleaned.removed = entries.countP fun e => stale e && removed answers folder e.key
  failures : cleaned.failures = entries.countP fun e => stale e && !removed answers folder e.key

/-- A removal loop has been through these entries. -/
structure Swept (folder : Folder) (entries : List FileEntry) (stale : FileEntry → Bool) (σ σ' : State)
    (answers : List (Answer Response)) (cleaned : Cleaned) : Prop extends
    Taken folder entries stale σ σ' answers cleaned where
  database : σ'.database = σ.database
  elsewhere : ∀ folder', folder' ≠ folder →
    σ'.files.directory folder' = σ.files.directory folder' ∧ ∀ key, removed answers folder' key = false

theorem countP_of_ne {entries : List FileEntry} {first second : List (Answer Response)} {key : GoString}
    (other : ∀ e ∈ entries, e.key ≠ key)
    (single : ∀ key', key' ≠ key → removed first folder key' = false) (test : Bool → Bool)
    (stale : FileEntry → Bool) :
    (entries.countP fun e => stale e && test (removed (first ++ second) folder e.key)) =
      entries.countP fun e => stale e && test (removed second folder e.key) := by
  refine List.countP_congr fun e member => ?_
  rw [removed_append, single e.key (other e member), Bool.false_or]

/-- One entry and then the others. -/
theorem Swept.cons {entry : FileEntry} {σ₁ : State} {r : Except Error Unit} {stale : FileEntry → Bool}
    {first second : List (Answer Response)} (eligible : stale entry = true)
    (distinct : ((entry :: entries).map FileEntry.key).Nodup) (database : σ₁.database = σ.database)
    (files : σ₁.files = if r.isOk then σ.files.drop folder entry.key else σ.files)
    (taken : ∀ folder' key', removed first folder' key' =
      (decide (folder = folder') && entry.key == key' && r.isOk))
    (tried : removed first folder entry.key = true ∨ validKey entry.key = false ∨
      ∃ e, (⟨.file (.remove folder entry.key), .error e⟩ : Answer Response) ∈ first)
    (rest : Swept folder entries stale σ₁ σ' second cleaned) :
    Swept folder (entry :: entries) stale σ σ' (first ++ second)
      (if r.isOk then { cleaned with removed := cleaned.removed + 1 }
        else { cleaned with failures := cleaned.failures + 1 }) := by
  obtain ⟨new, -⟩ := List.nodup_cons.mp distinct
  have other : ∀ e ∈ entries, e.key ≠ entry.key := by
    intro e member same
    exact new (same ▸ List.mem_map_of_mem member)
  have later : removed second folder entry.key = false := by
    by_contra again
    obtain ⟨e, member, same, -⟩ := rest.within entry.key (by simpa using again)
    exact other e member same
  have own : removed first folder entry.key = r.isOk := by simp [taken]
  have single : ∀ key, key ≠ entry.key → removed first folder key = false := by
    intro key differs
    simp [taken, Ne.symm differs]
  refine ⟨⟨?_, ?_, ?_, ?_, ?_⟩, rest.database.trans database, ?_⟩
  · intro key
    rw [rest.here, removed_append, files]
    by_cases same : key = entry.key
    · rw [same, later, own]
      cases r.isOk with
      | false => rfl
      | true =>
          change (Function.update σ.files.directory folder _ folder).lookup entry.key = none
          rw [Function.update_self, Finmap.lookup_erase]
    · rw [single key same, Bool.false_or]
      split
      · rfl
      · cases r.isOk with
        | false => rfl
        | true =>
            change (Function.update σ.files.directory folder _ folder).lookup key = _
            rw [Function.update_self, Finmap.lookup_erase_ne same]
  · intro key taken'
    rw [removed_append] at taken'
    by_cases same : key = entry.key
    · exact ⟨entry, List.mem_cons_self, same.symm, eligible⟩
    · rw [single key same, Bool.false_or] at taken'
      obtain ⟨e, member, found⟩ := rest.within key taken'
      exact ⟨e, List.mem_cons_of_mem _ member, found⟩
  · intro e member eligible'
    rw [removed_append]
    rcases List.mem_cons.mp member with rfl | later
    · rcases tried with taken' | invalid | ⟨err, answered⟩
      · exact .inl (by rw [taken', Bool.true_or])
      · exact .inr (.inl invalid)
      · exact .inr (.inr ⟨err, List.mem_append_left _ answered⟩)
    · rcases rest.tried e later eligible' with taken' | invalid | ⟨err, answered⟩
      · exact .inl (by rw [taken', Bool.or_true])
      · exact .inr (.inl invalid)
      · exact .inr (.inr ⟨err, List.mem_append_right _ answered⟩)
  · have counted : (entries.countP fun e => stale e && removed (first ++ second) folder e.key) =
        entries.countP fun e => stale e && removed second folder e.key :=
      countP_of_ne other single id stale
    rw [List.countP_cons, counted, removed_append, own, later, eligible, Bool.or_false]
    have count := rest.count
    cases r.isOk <;> simpa using count
  · rw [List.countP_cons, countP_of_ne other single not, removed_append, own, later, eligible,
      Bool.or_false]
    have failures := rest.failures
    cases r.isOk <;> simpa using failures
  · intro folder' differs
    obtain ⟨same, none⟩ := rest.elsewhere folder' differs
    refine ⟨same.trans ?_, fun key => ?_⟩
    · rw [files]
      split
      · exact Function.update_of_ne differs _ _
      · rfl
    · rw [removed_append, none, taken]
      simp [Ne.symm differs]

theorem Swept.skip {entry : FileEntry} {stale : FileEntry → Bool} (kept : stale entry = false)
    (rest : Swept folder entries stale σ σ' answers cleaned) :
    Swept folder (entry :: entries) stale σ σ' answers cleaned where
  database := rest.database
  elsewhere := rest.elsewhere
  here := rest.here
  within key taken := by
    obtain ⟨e, member, found⟩ := rest.within key taken
    exact ⟨e, List.mem_cons_of_mem _ member, found⟩
  tried e member eligible := by
    rcases List.mem_cons.mp member with rfl | later
    · rw [kept] at eligible
      cases eligible
    · exact rest.tried e later eligible
  count := by rw [List.countP_cons_of_neg (by simp [kept]), rest.count]
  failures := by rw [List.countP_cons_of_neg (by simp [kept]), rest.failures]

theorem cleanFolder_solo (distinct : (entries.map FileEntry.key).Nodup)
    (solo : (machine P).Solo i OnlyRemovalsFail (cleanFolder folder referenced cutoff entries) σ answers
      cleaned σ') :
    Swept folder entries (stale referenced cutoff) σ σ' answers cleaned := by
  induction entries generalizing σ σ' answers cleaned with
  | nil =>
      obtain ⟨rfl, rfl, kept⟩ := Machine.Solo.pure stored stored_unmoved solo
      have files : σ'.files = σ.files := congrArg Prod.snd kept
      refine ⟨⟨fun key => ?_, nofun, nofun, rfl, rfl⟩, congrArg Prod.fst kept,
        fun _ _ => ⟨by rw [files], fun _ => rfl⟩⟩
      rw [files]
      rfl
  | cons entry entries ih =>
      have distinct' := (List.nodup_cons.mp distinct).2
      unfold cleanFolder at solo
      split at solo
      · rename_i passed
        refine (ih distinct' solo).skip ?_
        rw [stale, passed]
        rfl
      · rename_i taken
        obtain ⟨r, σ₁, first, others, rfl, removal, solo⟩ := solo.bind
        obtain ⟨cleaned', σ₂, second, last, rfl, loop, ending⟩ := solo.bind
        obtain ⟨rfl, rfl, kept⟩ := Machine.Solo.pure stored stored_unmoved ending
        obtain ⟨database, files, one, tried⟩ := removeKey_solo removal
        have rest := ih distinct' loop
        have whole := Swept.cons (by simpa [stale] using taken) distinct database files one tried rest
        have files' : σ'.files = σ₂.files := congrArg Prod.snd kept
        have database' : σ'.database = σ₂.database := congrArg Prod.fst kept
        rw [List.append_nil]
        refine ⟨⟨fun key => ?_, whole.within, whole.tried, whole.count, whole.failures⟩,
          database'.trans whole.database, fun folder' differs => ?_⟩
        · rw [files']
          exact whole.here key
        · rw [files']
          exact whole.elsewhere folder' differs

end Removals

section Reading

variable {P : Platform} {σ σ' : State} {i : Nat} {answers : List (Answer Response)}

/-- What a scan of this state reads. -/
def State.scanned (σ : State) : ScanState where
  records := (Database.orderBy Image.id σ.database.images).map fun v => ⟨v.id, v.storageKey, v.storedSize⟩
  imageFiles := listDirectory σ.files.images
  thumbnailFiles := listDirectory σ.files.thumbnails
  temporaryFiles := listDirectory σ.files.temporary

/-- Alone and without faults a scan reads that. -/
theorem scan_alone (P : Platform) (i : Nat) (σ : State) :
    (machine P).alone i (fun _ => .normal) scan σ = some (.ok σ.scanned, σ) := rfl

theorem scanned_congr (same : stored σ' = stored σ) : σ'.scanned = σ.scanned := by
  have database : σ'.database = σ.database := congrArg Prod.fst same
  have files : σ'.files = σ.files := congrArg Prod.snd same
  unfold State.scanned
  rw [database, files]

/-- A statement that only reads. -/
theorem statement_solo {q : Statement} {r : Except DatabaseError q.Value}
    (reads : ∀ db : Database, (db.execute q).2 = db)
    (solo : (machine P).Solo i OnlyRemovalsFail (statement q) σ answers r σ') :
    r = (σ.database.execute q).1 ∧ stored σ' = stored σ := by
  obtain ⟨-, c, σ₁, σ₂, allowed, before, performed, after⟩ :=
    Machine.Solo.perform stored stored_unmoved solo
  obtain rfl | ⟨folder, key, removes⟩ := allowed
  · cases performed
    have database : σ₁.database = σ.database := congrArg Prod.fst before
    refine ⟨by rw [database], after.trans (Eq.trans ?_ before)⟩
    unfold stored
    rw [reads]
  · cases removes

theorem listFolder_solo {folder : Folder} {r : Except Error (List FileEntry)}
    (solo : (machine P).Solo i OnlyRemovalsFail (listFolder folder) σ answers r σ') :
    r = .ok (listDirectory (σ.files.directory folder)) ∧ stored σ' = stored σ := by
  obtain ⟨-, c, σ₁, σ₂, allowed, before, performed, after⟩ :=
    Machine.Solo.perform stored stored_unmoved solo
  obtain rfl | ⟨folder', key, removes⟩ := allowed
  · cases performed
    have files : σ₁.files = σ.files := congrArg Prod.snd before
    exact ⟨by rw [files], after.trans before⟩
  · cases removes

theorem scan_solo {r : Except Error ScanState}
    (solo : (machine P).Solo i OnlyRemovalsFail scan σ answers r σ') :
    r = .ok σ.scanned ∧ stored σ' = stored σ := by
  obtain ⟨records, σ₁, first, others, rfl, read, solo⟩ := Machine.Solo.bind solo
  obtain ⟨rfl, same₁⟩ := statement_solo (fun _ => rfl) read
  obtain ⟨images, σ₂, second, others, rfl, listed, solo⟩ := Machine.Solo.bind solo
  obtain ⟨rfl, same₂⟩ := listFolder_solo listed
  obtain ⟨thumbnails, σ₃, third, others, rfl, listed, solo⟩ := Machine.Solo.bind solo
  obtain ⟨rfl, same₃⟩ := listFolder_solo listed
  obtain ⟨temporary, σ₄, fourth, others, rfl, listed, solo⟩ := Machine.Solo.bind solo
  obtain ⟨rfl, same₄⟩ := listFolder_solo listed
  obtain ⟨-, rfl, same₅⟩ := Machine.Solo.pure stored stored_unmoved solo
  have before₃ := same₂.trans same₁
  have before₄ := same₃.trans before₃
  have files₁ : σ₁.files = σ.files := congrArg Prod.snd same₁
  have files₂ : σ₂.files = σ.files := congrArg Prod.snd before₃
  have files₃ : σ₃.files = σ.files := congrArg Prod.snd before₄
  refine ⟨?_, same₅.trans (same₄.trans before₄)⟩
  rw [files₁, files₂, files₃]
  rfl

/-- No file is removed by the action. -/
abbrev RemovesNothing (a : Action) : Prop := ∀ folder key, a ≠ .file (.remove folder key)

theorem scan_only : scan.Only RemovesNothing := by
  have listed : ∀ folder, (listFolder folder).Only RemovesNothing :=
    fun folder => Program.Only.perform nofun
  refine .bind (.perform nofun) fun records => ?_
  cases records with
  | error e => exact .pure _
  | ok records =>
      refine .bind (listed .images) fun images => ?_
      cases images with
      | error e => exact .pure _
      | ok images =>
          refine .bind (listed .thumbnails) fun thumbnails => ?_
          cases thumbnails with
          | error e => exact .pure _
          | ok thumbnails =>
              refine .bind (listed .temporary) fun temporary => ?_
              cases temporary <;> exact .pure _

theorem persistentStats_solo {now : Time} {r : Except DatabaseError PersistentStats}
    (solo : (machine P).Solo i OnlyRemovalsFail (persistentStats now) σ answers r σ') :
    (∃ p, r = .ok p) ∧ stored σ' = stored σ := by
  obtain ⟨totals, σ₁, first, others, rfl, read, solo⟩ := Machine.Solo.bind solo
  obtain ⟨rfl, same₁⟩ := statement_solo (fun _ => rfl) read
  obtain ⟨aliases, σ₂, second, others, rfl, read, solo⟩ := Machine.Solo.bind solo
  obtain ⟨rfl, same₂⟩ := statement_solo (fun _ => rfl) read
  obtain ⟨sessions, σ₃, third, others, rfl, read, solo⟩ := Machine.Solo.bind solo
  obtain ⟨rfl, same₃⟩ := statement_solo (fun _ => rfl) read
  obtain ⟨tokens, σ₄, fourth, others, rfl, read, solo⟩ := Machine.Solo.bind solo
  obtain ⟨rfl, same₄⟩ := statement_solo (fun _ => rfl) read
  obtain ⟨-, rfl, same₅⟩ := Machine.Solo.pure stored stored_unmoved solo
  exact ⟨⟨_, rfl⟩, same₅.trans (same₄.trans (same₃.trans (same₂.trans same₁)))⟩

theorem persistentStats_only (now : Time) : (persistentStats now).Only RemovesNothing := by
  refine .bind (.perform nofun) fun totals => ?_
  cases totals with
  | error e => exact .pure _
  | ok totals =>
      refine .bind (.perform nofun) fun aliases => ?_
      cases aliases with
      | error e => exact .pure _
      | ok aliases =>
          refine .bind (.perform nofun) fun sessions => ?_
          cases sessions with
          | error e => exact .pure _
          | ok sessions => exact .bind (.perform nofun) fun tokens => .pure _

/-- A request that is neither a statement nor about files. -/
theorem request_solo {a : Action} {r : Response a} (other : ∀ q, a ≠ .statement q)
    (other' : ∀ b, a ≠ .file b)
    (solo : (machine P).Solo i OnlyRemovalsFail (request a) σ answers r σ') :
    stored σ' = stored σ := by
  obtain ⟨-, c, σ₁, σ₂, -, before, performed, after⟩ :=
    Machine.Solo.perform stored stored_unmoved solo
  have frame := perform_frame (i := i) performed
  refine after.trans (Eq.trans ?_ before)
  unfold stored
  rw [frame.database other, frame.files other']

theorem indexStats_solo {r : IndexStats}
    (solo : (machine P).Solo i OnlyRemovalsFail indexStats σ answers r σ') :
    stored σ' = stored σ := by
  obtain ⟨images, σ₁, first, others, rfl, read₁, solo⟩ := Machine.Solo.bind solo
  obtain ⟨aliases, σ₂, second, others, rfl, read₂, solo⟩ := Machine.Solo.bind solo
  obtain ⟨sessions, σ₃, third, others, rfl, read₃, solo⟩ := Machine.Solo.bind solo
  obtain ⟨tokens, σ₄, fourth, others, rfl, read₄, solo⟩ := Machine.Solo.bind solo
  obtain ⟨-, -, same⟩ := Machine.Solo.pure stored stored_unmoved solo
  calc
    stored σ' = stored σ₄ := same
    stored σ₄ = stored σ₃ := request_solo (by simp) (by simp) read₄
    stored σ₃ = stored σ₂ := request_solo (by simp) (by simp) read₃
    stored σ₂ = stored σ₁ := request_solo (by simp) (by simp) read₂
    stored σ₁ = stored σ := request_solo (by simp) (by simp) read₁

theorem indexStats_only : indexStats.Only RemovesNothing :=
  .bind (.perform nofun) fun _ => .bind (.perform nofun) fun _ => .bind (.perform nofun) fun _ =>
    .bind (.perform nofun) fun _ => .pure _

end Reading

section Report

variable {P : Platform} {σ σ' : State} {i : Nat} {answers : List (Answer Response)} {now cutoff : Time}

/-- An entry that `Daily` is to take away. -/
def State.staleIn (σ : State) (cutoff : Time) (folder : Folder) (e : FileEntry) : Bool :=
  e.regular && decide (e.modifiedAt ≤ cutoff) &&
    match folder with
    | .images => !σ.database.images.any fun v => v.storageKey == e.key
    | .thumbnails => !σ.database.images.any fun v => v.id == e.key
    | .temporary => true

/-- The entries of a directory that it takes away, and those that resist. -/
def State.takenIn (σ : State) (cutoff : Time) (answers : List (Answer Response)) (folder : Folder) : Nat :=
  (listDirectory (σ.files.directory folder)).countP fun e =>
    σ.staleIn cutoff folder e && removed answers folder e.key

def State.resistingIn (σ : State) (cutoff : Time) (answers : List (Answer Response))
    (folder : Folder) : Nat :=
  (listDirectory (σ.files.directory folder)).countP fun e =>
    σ.staleIn cutoff folder e && !removed answers folder e.key

theorem scanned_expected (σ : State) (key : GoString) :
    (σ.scanned.expected key).isSome = σ.database.images.any fun v => v.storageKey == key := by
  unfold ScanState.expected
  rw [Bool.eq_iff_iff, List.getLast?_isSome, List.any_eq_true]
  have reads : Reads σ.scanned σ.database := rfl
  constructor
  · intro some
    obtain ⟨r, member⟩ := List.exists_mem_of_ne_nil _ some
    obtain ⟨listed, same⟩ := List.mem_filter.mp member
    obtain ⟨v, known, rfl⟩ := reads.mem.mp listed
    exact ⟨v, known, same⟩
  · rintro ⟨v, known, same⟩
    have member : (⟨v.id, v.storageKey, v.storedSize⟩ : ImageFileRecord) ∈
        σ.scanned.records.filter fun r => r.storageKey == key :=
      List.mem_filter.mpr ⟨reads.mem.mpr ⟨v, known, rfl⟩, same⟩
    exact List.ne_nil_of_mem member

theorem scanned_hasImage (σ : State) (id : GoString) :
    σ.scanned.hasImage id = σ.database.images.any fun v => v.id == id := by
  have reads : Reads σ.scanned σ.database := rfl
  unfold ScanState.hasImage
  rw [Bool.eq_iff_iff, List.any_eq_true, List.any_eq_true]
  constructor
  · rintro ⟨r, listed, same⟩
    obtain ⟨v, known, rfl⟩ := reads.mem.mp listed
    exact ⟨v, known, same⟩
  · rintro ⟨v, known, same⟩
    exact ⟨_, reads.mem.mpr ⟨v, known, rfl⟩, same⟩

/-- Counting what is left when only some of what is counted has gone. -/
theorem countP_left {entries : List FileEntry} {gone p : FileEntry → Bool}
    (counted : ∀ e ∈ entries, gone e = true → p e = true) :
    (entries.filter fun e => !gone e).countP p + entries.countP gone = entries.countP p := by
  induction entries with
  | nil => rfl
  | cons e entries ih =>
      have before := ih fun e member => counted e (List.mem_cons_of_mem _ member)
      by_cases lost : gone e = true
      · have own := counted e List.mem_cons_self lost
        rw [List.filter_cons_of_neg (by simp [lost]), List.countP_cons_of_pos lost,
          List.countP_cons_of_pos own]
        omega
      · rw [List.filter_cons_of_pos (by simp [lost]), List.countP_cons_of_neg lost, List.countP_cons,
          List.countP_cons]
        omega

variable {folder : Folder} {cleaned : Cleaned}

/-- What a loop took were entries that it was to take. -/
theorem Taken.removed_stale {test : FileEntry → Bool} {d : Directory}
    (h : Taken folder (listDirectory d) test σ σ' answers cleaned) {e : FileEntry}
    (member : e ∈ listDirectory d) (taken : removed answers folder e.key = true) : test e = true := by
  obtain ⟨e', member', same, eligible⟩ := h.within e.key taken
  rw [← List.inj_on_of_nodup_map (listDirectory_nodup d) member' member same]
  exact eligible

theorem Taken.count_removed {test : FileEntry → Bool} {d : Directory}
    (h : Taken folder (listDirectory d) test σ σ' answers cleaned) :
    cleaned.removed = (listDirectory d).countP fun e => removed answers folder e.key := by
  rw [h.count]
  refine List.countP_congr fun e member => ?_
  rw [Bool.and_eq_true]
  exact ⟨And.right, fun taken => ⟨h.removed_stale member taken, taken⟩⟩

/-- The listing afterwards. -/
theorem Taken.listing {test : FileEntry → Bool}
    (h : Taken folder (listDirectory (σ.files.directory folder)) test σ σ' answers cleaned) :
    listDirectory (σ'.files.directory folder) =
      (listDirectory (σ.files.directory folder)).filter fun e => !removed answers folder e.key :=
  listDirectory_filter h.here

theorem Taken.listing_length {test : FileEntry → Bool}
    (h : Taken folder (listDirectory (σ.files.directory folder)) test σ σ' answers cleaned) :
    (listDirectory (σ'.files.directory folder)).length + cleaned.removed =
      (listDirectory (σ.files.directory folder)).length := by
  rw [h.listing, h.count_removed, ← List.countP_true]
  exact countP_left fun _ _ _ => rfl

/-- A loop as a part of what else happens. -/
theorem Taken.widen {entries : List FileEntry} {test : FileEntry → Bool} {σ₁ σ₂ : State}
    {first second third : List (Answer Response)}
    (h : Taken folder entries test σ₁ σ₂ second cleaned)
    (before : σ₁.files.directory folder = σ.files.directory folder)
    (after : σ'.files.directory folder = σ₂.files.directory folder)
    (head : ∀ key, removed first folder key = false)
    (last : ∀ key, removed third folder key = false) :
    Taken folder entries test σ σ' (first ++ (second ++ third)) cleaned := by
  have same : ∀ key, removed (first ++ (second ++ third)) folder key = removed second folder key := by
    intro key
    rw [removed_append, removed_append, head, last, Bool.false_or, Bool.or_false]
  constructor
  · intro key
    rw [same, after, h.here, before]
  · intro key taken
    rw [same] at taken
    exact h.within key taken
  · intro e member eligible
    rw [same]
    rcases h.tried e member eligible with taken | invalid | ⟨err, answered⟩
    · exact .inl taken
    · exact .inr (.inl invalid)
    · exact .inr (.inr ⟨err, List.mem_append_right _ (List.mem_append_left _ answered)⟩)
  · simp only [same]
    exact h.count
  · simp only [same]
    exact h.failures

theorem stale_staleIn (referenced : GoString → Bool) (cutoff : Time) (e : FileEntry) :
    stale referenced cutoff e = (e.regular && decide (e.modifiedAt ≤ cutoff) && !referenced e.key) := by
  unfold stale
  rw [Bool.eq_iff_iff]
  simp only [Bool.not_eq_true', Bool.or_eq_false_iff, decide_eq_false_iff_not, not_lt, Bool.and_eq_true,
    decide_eq_true_eq, Bool.not_eq_false']
  tauto

/-- The outcome of `Daily` on a state. -/
structure Outcome (σ σ' : State) (cutoff : Time) (answers : List (Answer Response))
    (result : DailyResult) : Prop where
  database : σ'.database = σ.database
  here : ∀ folder key, (σ'.files.directory folder).lookup key =
    if removed answers folder key then none else (σ.files.directory folder).lookup key
  within : ∀ folder key, removed answers folder key = true →
    ∃ e ∈ listDirectory (σ.files.directory folder), e.key = key ∧ σ.staleIn cutoff folder e = true
  tried : ∀ folder, ∀ e ∈ listDirectory (σ.files.directory folder), σ.staleIn cutoff folder e = true →
    removed answers folder e.key = true ∨ validKey e.key = false ∨
      ∃ r, (⟨.file (.remove folder e.key), .error r⟩ : Answer Response) ∈ answers
  images : result.removedOrphanImages = σ.takenIn cutoff answers .images
  thumbnails : result.removedOrphanThumbnails = σ.takenIn cutoff answers .thumbnails
  temporary : result.removedTemporaryFiles = σ.takenIn cutoff answers .temporary
  failures : result.cleanupFailures = σ.resistingIn cutoff answers .images +
    σ.resistingIn cutoff answers .thumbnails + σ.resistingIn cutoff answers .temporary
  inspection : ∀ t, σ'.scanned.inspection t = { result.inspection with checkedAt := t }

/-- The corrections of the inspection are what a scan afterwards finds. -/
theorem inspection_afterCleanup {images thumbnails temporary : Cleaned}
    (database : σ'.database = σ.database)
    (taken : Taken .images σ.scanned.imageFiles (σ.staleIn cutoff .images) σ σ' answers images)
    (taken' : Taken .thumbnails σ.scanned.thumbnailFiles (σ.staleIn cutoff .thumbnails) σ σ' answers
      thumbnails)
    (taken'' : Taken .temporary σ.scanned.temporaryFiles (σ.staleIn cutoff .temporary) σ σ' answers
      temporary) (t : Time) :
    σ'.scanned.inspection t =
      { afterCleanup (σ.scanned.inspection now) images thumbnails temporary with checkedAt := t } := by
  have records : σ'.scanned.records = σ.scanned.records := by
    unfold State.scanned
    rw [database]
  have expected : σ'.scanned.expected = σ.scanned.expected := by
    funext key
    unfold ScanState.expected
    rw [records]
  have hasImage : σ'.scanned.hasImage = σ.scanned.hasImage := by
    funext id
    unfold ScanState.hasImage
    rw [records]
  have listing : σ'.scanned.imageFiles = _ := taken.listing
  have listing' : σ'.scanned.thumbnailFiles = _ := taken'.listing
  have listing'' : σ'.scanned.temporaryFiles = _ := taken''.listing
  have present : ∀ r ∈ σ.scanned.records,
      σ'.scanned.present r.storageKey = σ.scanned.present r.storageKey := by
    intro r member
    unfold ScanState.present
    rw [listing, List.any_filter, expected, Bool.eq_iff_iff, List.any_eq_true, List.any_eq_true]
    refine exists_congr fun e => and_congr_right fun there => ?_
    rw [Bool.and_eq_true, Bool.not_eq_true']
    refine and_iff_right_of_imp fun fits => ?_
    -- a file that a row names is not stale
    by_contra gone
    have eligible := taken.removed_stale there (by simpa using gone)
    simp only [State.staleIn, Bool.and_eq_true, Bool.not_eq_true', List.any_eq_false] at eligible
    simp only [Bool.and_eq_true, beq_iff_eq] at fits
    have reads : Reads σ.scanned σ.database := rfl
    obtain ⟨v, known, rfl⟩ := reads.mem.mp member
    exact eligible.2 v known (by simp [fits.1.1])
  have missing : σ'.scanned.missing = σ.scanned.missing := by
    unfold ScanState.missing
    rw [records]
    exact List.filter_congr fun r member => by rw [present r member]
  have imageFiles : σ'.scanned.imageFiles.length + images.removed = σ.scanned.imageFiles.length :=
    taken.listing_length
  have thumbnailFiles : σ'.scanned.thumbnailFiles.length + thumbnails.removed =
      σ.scanned.thumbnailFiles.length :=
    taken'.listing_length
  have temporaryFiles : σ'.scanned.temporaryFiles.length + temporary.removed =
      σ.scanned.temporaryFiles.length :=
    taken''.listing_length
  have orphanImages : (σ'.scanned.imageFiles.countP fun e =>
        (σ.scanned.expected e.key).isNone || !e.regular) + images.removed =
      σ.scanned.imageFiles.countP fun e => (σ.scanned.expected e.key).isNone || !e.regular := by
    rw [listing, taken.count_removed]
    refine countP_left fun e there gone => ?_
    have eligible := taken.removed_stale there gone
    simp only [State.staleIn, Bool.and_eq_true] at eligible
    rw [← Option.not_isSome, scanned_expected, eligible.2, Bool.true_or]
  have orphanThumbnails : (σ'.scanned.thumbnailFiles.countP fun e =>
        !σ.scanned.hasImage e.key || !e.regular) + thumbnails.removed =
      σ.scanned.thumbnailFiles.countP fun e => !σ.scanned.hasImage e.key || !e.regular := by
    rw [listing', taken'.count_removed]
    refine countP_left fun e there gone => ?_
    have eligible := taken'.removed_stale there gone
    simp only [State.staleIn, Bool.and_eq_true] at eligible
    rw [scanned_hasImage, eligible.2, Bool.true_or]
  unfold ScanState.inspection afterCleanup
  simp only [missing, records, expected, hasImage, InspectionResult.mk.injEq, true_and]
  omega

theorem cleanUp_solo {r : Except Error DailyResult}
    (solo : (machine P).Solo i OnlyRemovalsFail (cleanUp σ.scanned now cutoff) σ answers r σ') :
    ∃ result, r = .ok result ∧ result.completedAt = now ∧ Outcome σ σ' cutoff answers result := by
  obtain ⟨images, σ₁, first, others, rfl, loop, solo⟩ := Machine.Solo.bind solo
  obtain ⟨thumbnails, σ₂, second, others, rfl, loop', solo⟩ := Machine.Solo.bind solo
  obtain ⟨temporary, σ₃, third, others, rfl, loop'', solo⟩ := Machine.Solo.bind solo
  obtain ⟨stats, σ₄, fourth, others, rfl, persistent, solo⟩ := Machine.Solo.bind solo
  obtain ⟨⟨p, rfl⟩, same₄⟩ := persistentStats_solo persistent
  obtain ⟨indexes, σ₅, fifth, last, rfl, counts, solo⟩ := Machine.Solo.bind solo
  obtain ⟨rfl, rfl, same₆⟩ := Machine.Solo.pure stored stored_unmoved solo
  have same : stored σ' = stored σ₃ := same₆.trans ((indexStats_solo counts).trans same₄)
  have database : σ'.database = σ₃.database := congrArg Prod.fst same
  have files : σ'.files = σ₃.files := congrArg Prod.snd same
  have swept := cleanFolder_solo (listDirectory_nodup _) loop
  have swept' := cleanFolder_solo (listDirectory_nodup _) loop'
  have swept'' := cleanFolder_solo (listDirectory_nodup _) loop''
  have rows : σ'.database = σ.database :=
    database.trans (swept''.database.trans (swept'.database.trans swept.database))
  have silent : ∀ folder key, removed (fourth ++ (fifth ++ [])) folder key = false := by
    intro folder key
    rw [List.append_nil, removed_append,
      unremoved persistent (persistentStats_only now) fun a key other => other folder key,
      unremoved counts indexStats_only fun a key other => other folder key]
    rfl
  have stale_images : stale (fun key => (σ.scanned.expected key).isSome) cutoff =
      σ.staleIn cutoff .images := by
    funext e
    rw [stale_staleIn, scanned_expected]
    rfl
  have stale_thumbnails : stale σ.scanned.hasImage cutoff = σ.staleIn cutoff .thumbnails := by
    funext e
    rw [stale_staleIn, scanned_hasImage]
    rfl
  have stale_temporary : stale (fun _ => false) cutoff = σ.staleIn cutoff .temporary := by
    funext e
    rw [stale_staleIn]
    rfl
  rw [stale_images] at swept
  rw [stale_thumbnails] at swept'
  rw [stale_temporary] at swept''
  have taken : Taken .images σ.scanned.imageFiles (σ.staleIn cutoff .images) σ σ'
      ([] ++ (first ++ (second ++ (third ++ (fourth ++ (fifth ++ [])))))) images := by
    refine swept.toTaken.widen rfl ?_ (fun _ => rfl) fun key => ?_
    · rw [files, (swept''.elsewhere .images (by decide)).1, (swept'.elsewhere .images (by decide)).1]
    · rw [removed_append, removed_append, (swept'.elsewhere .images (by decide)).2,
        (swept''.elsewhere .images (by decide)).2, silent]
      rfl
  have taken' : Taken .thumbnails σ.scanned.thumbnailFiles (σ.staleIn cutoff .thumbnails) σ σ'
      (first ++ (second ++ (third ++ (fourth ++ (fifth ++ []))))) thumbnails := by
    refine swept'.toTaken.widen (swept.elsewhere .thumbnails (by decide)).1 ?_
      (swept.elsewhere .thumbnails (by decide)).2 fun key => ?_
    · rw [files, (swept''.elsewhere .thumbnails (by decide)).1]
    · rw [removed_append, (swept''.elsewhere .thumbnails (by decide)).2, silent]
      rfl
  have taken'' : Taken .temporary σ.scanned.temporaryFiles (σ.staleIn cutoff .temporary) σ σ'
      (first ++ (second ++ (third ++ (fourth ++ (fifth ++ []))))) temporary := by
    rw [← List.append_assoc first second]
    refine swept''.toTaken.widen ?_ (by rw [files]) (fun key => ?_) (silent .temporary)
    · rw [(swept'.elsewhere .temporary (by decide)).1, (swept.elsewhere .temporary (by decide)).1]
    · rw [removed_append, (swept.elsewhere .temporary (by decide)).2,
        (swept'.elsewhere .temporary (by decide)).2]
      rfl
  refine ⟨_, rfl, rfl, rows, ?_, ?_, ?_, taken.count, taken'.count, taken''.count, ?_, ?_⟩
  · intro folder key
    cases folder with
    | images => exact taken.here key
    | thumbnails => exact taken'.here key
    | temporary => exact taken''.here key
  · intro folder key gone
    cases folder with
    | images => exact taken.within key gone
    | thumbnails => exact taken'.within key gone
    | temporary => exact taken''.within key gone
  · intro folder e member eligible
    cases folder with
    | images => exact taken.tried e member eligible
    | thumbnails => exact taken'.tried e member eligible
    | temporary => exact taken''.tried e member eligible
  · change images.failures + thumbnails.failures + temporary.failures = _
    rw [taken.failures, taken'.failures, taken''.failures]
    rfl
  · exact inspection_afterCleanup rows taken taken' taken''

theorem Outcome.of_stored {σ₁ σ₁' : State} {first : List (Answer Response)} {result : DailyResult}
    (h : Outcome σ₁ σ₁' cutoff answers result) (before : stored σ₁ = stored σ)
    (after : stored σ' = stored σ₁') (silent : ∀ folder key, removed first folder key = false) :
    Outcome σ σ' cutoff (first ++ answers) result := by
  have rows : σ₁.database = σ.database := congrArg Prod.fst before
  have files : σ₁.files = σ.files := congrArg Prod.snd before
  have rows' : σ'.database = σ₁'.database := congrArg Prod.fst after
  have files' : σ'.files = σ₁'.files := congrArg Prod.snd after
  have same : removed (first ++ answers) = removed answers := by
    funext folder key
    rw [removed_append, silent, Bool.false_or]
  have staleIn : σ₁.staleIn cutoff = σ.staleIn cutoff := by
    funext folder e
    unfold State.staleIn
    rw [rows]
  have takenIn : ∀ folder, σ.takenIn cutoff (first ++ answers) folder = σ₁.takenIn cutoff answers folder := by
    intro folder
    unfold State.takenIn
    rw [same, staleIn, files]
  have resistingIn : ∀ folder,
      σ.resistingIn cutoff (first ++ answers) folder = σ₁.resistingIn cutoff answers folder := by
    intro folder
    unfold State.resistingIn
    rw [same, staleIn, files]
  constructor
  · rw [rows', h.database, rows]
  · rw [same, files', ← files]
    exact h.here
  · rw [same, ← staleIn, ← files]
    exact h.within
  · rw [same, ← staleIn, ← files]
    intro folder e member eligible
    rcases h.tried folder e member eligible with gone | invalid | ⟨r, answered⟩
    · exact .inl gone
    · exact .inr (.inl invalid)
    · exact .inr (.inr ⟨r, List.mem_append_right _ answered⟩)
  · rw [takenIn]
    exact h.images
  · rw [takenIn]
    exact h.thumbnails
  · rw [takenIn]
    exact h.temporary
  · rw [resistingIn, resistingIn, resistingIn]
    exact h.failures
  · rw [scanned_congr after]
    exact h.inspection

/-- `Daily` alone, with any removals failing: it takes away the stale entries that do not resist, counts
both, changes no row, and its inspection is that of a scan of what it leaves. The age is that of the
caller where that is positive, and a day otherwise. -/
theorem daily_report (P : Platform) (requests : Nat → Request) (σ : State) (i : Nat) (safetyAge : Int)
    (τ : List (Event (machine P))) (w : World (machine P) Result) (v : Result) (before : Reported)
    (asked : requests i = .daily safetyAge)
    (run : Run (alone P requests i fun e => OnlyRemovalsFail e.action e.choice) (start P requests σ) τ w)
    (ended : w.calls i = .done v) :
    ∃ result, v = .maintained (.ok result) ∧
      (answersOf i τ).head? = some ⟨.now, result.completedAt⟩ ∧
      Outcome σ w.shared (result.completedAt - effectiveAge safetyAge) (answersOf i τ) result ∧
      (before.afterDaily (.ok result)).lastInspection = some result.inspection ∧
      ∃ s, (machine P).alone i (fun _ => .normal) scan w.shared = some (.ok s, w.shared) ∧
        ∀ t, s.inspection t = { result.inspection with checkedAt := t } := by
  have single : ∀ w e, (alone P requests i fun e => OnlyRemovalsFail e.action e.choice).Admits w e →
      e.call = i ∧ OnlyRemovalsFail e.action e.choice := fun _ _ admitted => admitted
  have solo := run.solo i OnlyRemovalsFail not_false single ended
  have program : (start P requests σ).calls i = returning (daily safetyAge) .maintained := by
    change (requests i).program P = _
    rw [asked]
    rfl
  rw [program] at solo
  generalize answersOf i τ = answers at solo
  obtain ⟨outcome, σ₁, whole, last, rfl, dailying, ending⟩ := Machine.Solo.bind solo
  obtain ⟨rfl, rfl, same₁⟩ := Machine.Solo.pure stored stored_unmoved ending
  obtain ⟨now, σ₂, first, others, rfl, read, scanning⟩ := Machine.Solo.bind dailying
  have same₂ : stored σ₂ = stored σ := request_solo (by simp) (by simp) read
  obtain ⟨rfl, -⟩ := Machine.Solo.perform stored stored_unmoved read
  obtain ⟨scanned, σ₃, second, third, rfl, scanned', cleaning⟩ := Machine.Solo.bind scanning
  obtain ⟨rfl, same₃⟩ := scan_solo scanned'
  have cleaning' : (machine P).Solo i OnlyRemovalsFail
      (cleanUp σ₃.scanned now (now - effectiveAge safetyAge)) σ₃ third outcome σ₁ := by
    rw [scanned_congr same₃]
    exact cleaning
  obtain ⟨result, rfl, rfl, report⟩ := cleanUp_solo cleaning'
  have silent : ∀ folder key,
      removed ([⟨.now, result.completedAt⟩] ++ second : List (Answer Response)) folder key = false := by
    intro folder key
    rw [removed_append, unremoved scanned' scan_only fun a key other => other folder key]
    rfl
  have report' := report.of_stored (same₃.trans same₂) same₁ silent
  refine ⟨result, rfl, rfl, ?_, rfl, _, scan_alone P i w.shared, report'.inspection⟩
  rw [List.append_nil, ← List.append_assoc]
  exact report'

end Report

section Sample

theorem sample_png_admissible :
    (sampleImage Processor.pngSignature (str "image/png") .isPublic).admissible = true := by
  decide

/-- A thumbnail whose name is no key and a temporary file, both a second old. -/
def litteredState : State :=
  let σ := sampleState Processor.pngSignature (str "image/png") .isPublic sample_png_admissible
  let aged : Entry := ⟨.regular [], -second⟩
  { σ with files := (σ.files.put .temporary (str "t") aged).put .thumbnails (str "a\\b") aged }

abbrev littered (safetyAge : Int) : World (machine samplePlatform) Result :=
  start samplePlatform (fun _ => .daily safetyAge) litteredState

/-- So many steps without a fault end with this result at time zero. -/
def maintains (safetyAge : Int) (steps taken failures : Nat) : Bool :=
  ((littered safetyAge).execute (List.replicate steps (0, .normal))).any fun run =>
    match run.2.calls 0 with
    | .done (.maintained (.ok result)) =>
        result.completedAt == 0 && result.removedTemporaryFiles == taken &&
          result.cleanupFailures == failures
    | _ => false

theorem maintained_runs (safetyAge : Int) (steps taken failures : Nat)
    (maintained : maintains safetyAge steps taken failures = true) : ∃ τ w result,
      Run (alone samplePlatform (fun _ => .daily safetyAge) 0 fun e => OnlyRemovalsFail e.action e.choice)
        (littered safetyAge) τ w ∧
      w.calls 0 = .done (.maintained (.ok result)) ∧ result.completedAt = 0 ∧
      result.removedTemporaryFiles = taken ∧ result.cleanupFailures = failures := by
  obtain ⟨⟨τ, w⟩, executed, shown⟩ := (Option.any_eq_true _ _).mp maintained
  have run : Run (alone samplePlatform (fun _ => .daily safetyAge) 0
      fun e => OnlyRemovalsFail e.action e.choice) (littered safetyAge) τ w := by
    refine .of_execute _ (fun w w' e member _ => ?_) executed
    obtain ⟨call, choice⟩ := Prod.mk.inj (List.eq_of_mem_replicate member)
    exact ⟨call, .inl choice⟩
  split at shown
  · rename_i result ended
    simp only [Bool.and_eq_true, beq_iff_eq] at shown
    exact ⟨τ, w, result, run, ended, shown.1.1, shown.1.2, shown.2⟩
  · cases shown

theorem daily_report_sample : ∃ (w : World (machine samplePlatform) Result) (result : DailyResult),
    result.removedTemporaryFiles = 1 ∧ result.cleanupFailures = 1 ∧
      ∀ t, w.shared.scanned.inspection t = { result.inspection with checkedAt := t } := by
  obtain ⟨τ, w, result, run, ended, -, taken, failures⟩ :=
    maintained_runs second 14 1 1 (by decide +kernel)
  obtain ⟨result', same, -, outcome, -⟩ := daily_report samplePlatform (fun _ => .daily second)
    litteredState 0 second τ w _ ⟨0, [], none, none⟩ rfl run ended
  cases same
  exact ⟨w, result, taken, failures, outcome.inspection⟩

/-- An age that is not positive counts as a day. -/
theorem no_age_is_a_day : ¬ ∀ (P : Platform) (requests : Nat → Request) (σ : State) (i : Nat)
    (safetyAge : Int) (τ : List (Event (machine P))) (w : World (machine P) Result) (v : Result),
    requests i = .daily safetyAge →
    Run (alone P requests i fun e => OnlyRemovalsFail e.action e.choice) (start P requests σ) τ w →
    w.calls i = .done v →
    ∃ result, v = .maintained (.ok result) ∧
      Outcome σ w.shared (result.completedAt - safetyAge) (answersOf i τ) result := by
  intro claim
  obtain ⟨τ, w, result, run, ended, now, none, resisted⟩ :=
    maintained_runs 0 13 0 0 (by decide +kernel)
  obtain ⟨result', same, outcome⟩ := claim _ _ _ _ _ _ _ _ rfl run ended
  cases same
  rw [now] at outcome
  have there : entryOf (str "t") ⟨.regular [], -second⟩ ∈
      listDirectory (litteredState.files.directory .temporary) := listDirectory_mem rfl
  have stale : litteredState.staleIn (0 - 0) .temporary (entryOf (str "t") ⟨.regular [], -second⟩) = true :=
    rfl
  have count := outcome.temporary
  have failures := outcome.failures
  rw [none] at count
  rw [resisted] at failures
  have unresisting : litteredState.resistingIn (0 - 0) (answersOf 0 τ) .temporary = 0 := by omega
  rcases gone : removed (answersOf 0 τ) .temporary (str "t") with _ | _
  · refine absurd (List.countP_eq_zero.mp unresisting _ there) (not_not.mpr ?_)
    rw [stale, Bool.true_and]
    exact congrArg not gone
  · refine absurd (List.countP_eq_zero.mp count.symm _ there) (not_not.mpr ?_)
    rw [stale, Bool.true_and]
    exact gone

end Sample

end ImageSilo
