import ImageSilo.Guarantees.Scans
import ImageSilo.Publication.Cleaning
import ImageSilo.Publication.Origins

/-! As long as every row is stored soon enough after its file was written, the cleaner only meets files
that no row refers to. -/
namespace ImageSilo.Publication

open Go Concurrent Storage Tables

/-- No row is stored when its file has come of the age at which a cleaner takes it. -/
def Prompt (requests : Nat → Request) {P : Platform} (w : World (machine P) Result)
    (e : Event (machine P)) : Prop :=
  ∀ v ∈ storedRow e.action, ∀ t ∈ w.shared.files.lastWrite.lookup v.storageKey,
    ∀ j age, requests j = .daily age → w.shared.clock - t < effectiveAge age

/-- Anything may fail and the process may crash, but rows are stored in time. -/
def prompt (P : Platform) (requests : Nat → Request) : Setting (machine P) Result :=
  serving P requests True (Prompt requests)

/-- The size and the digest that the row records are those of the content. -/
def Recorded (P : Platform) (v : Image) (content : Bytes) : Prop :=
  (content.length : Int) = v.storedSize ∧ P.sha256 content = v.storedSHA256

/-- The time of the last write is known of every file in the images directory. -/
def Stamped (f : Files) : Prop :=
  ∀ k entry, f.images.lookup k = some entry → f.lastWrite.lookup k = some entry.modifiedAt

def sweepOf : Request → Option Sweep
  | .daily age => some (.begin age)
  | _ => none

/-- A file of this age would be taken by a cleaner. -/
def Expired (requests : Nat → Request) (σ : State) (t : Time) : Prop :=
  ∃ j age, requests j = .daily age ∧ t ≤ σ.clock - effectiveAge age

structure Custody (P : Platform) (requests : Nat → Request) (σ : State) (ls : Nat → Ledger)
    (ss : Nat → Option Sweep) : Prop where
  rows : σ.rowFiles (Recorded P)
  dated : Stamped σ.files
  placed : ∀ j k f, (ls j).placed = some (k, f) → ∃ t, σ.files.lastWrite.lookup k = some t ∧
    ((∃ entry, σ.files.images.lookup k = some entry) ∨ Expired requests σ t)
  aged : ∀ j s, ss j = some s → requests j = .daily s.age
  swept : ∀ j age, requests j = .daily age → ∃ s, ss j = some s
  timed : ∀ j s now, ss j = some s → s.time = some now → now ≤ σ.clock
  listed : ∀ j s entries, ss j = some s → s.entries = some entries → ∀ e ∈ entries,
    Spent σ.issued ls e.key ∧ σ.files.lastWrite.lookup e.key = some e.modifiedAt
  read : ∀ j s now records, ss j = some s → s.time = some now → s.records = some records →
    ∀ v ∈ σ.database.images, (∃ r ∈ records, r.storageKey = v.storageKey) ∨
      ∃ t, σ.files.lastWrite.lookup v.storageKey = some t ∧ now - effectiveAge s.age < t

variable {P : Platform} {requests : Nat → Request} {σ σ' : State} {ls : Nat → Ledger}
  {ss : Nat → Option Sweep} {i j : Nat} {a : Action} {c : Choice} {r : Response a}

section Files

/-- What a step does to the images directory and to the times of its files. -/
theorem images_written (permitted : (ls i).permits P a)
    (performed : σ.perform P i a c = some (r, σ')) :
    (σ'.files.lastWrite = σ.files.lastWrite ∧ ∀ k entry, σ'.files.images.lookup k = some entry →
        σ.files.images.lookup k = some entry) ∨
      ∃ path key entry, a = .file (.rename path .images key) ∧
        σ'.files.images = σ.files.images.insert key entry ∧
        σ'.files.lastWrite = σ.files.lastWrite.insert key entry.modifiedAt := by
  cases a with
  | file b =>
      obtain ⟨files, done, rfl⟩ := file_state performed
      have effect := file_effect done
      cases effect with
      | created path unused absent =>
          refine .inl ⟨rfl, fun k entry there => ?_⟩
          rwa [← images_put_temporary σ.files path ⟨.regular [], σ.clock⟩]
      | wrote path content left r full =>
          refine .inl ⟨rfl, fun k entry there => ?_⟩
          rwa [images_put_temporary] at there
      | transformed input path metadata options plan r left =>
          refine .inl ⟨by cases left <;> rfl, fun k entry there => ?_⟩
          rwa [images_output] at there
      | thumbnailed input path r left =>
          refine .inl ⟨by cases left <;> rfl, fun k entry there => ?_⟩
          rwa [images_output] at there
      | renamed path folder key entry there =>
          cases folder with
          | images => exact .inr ⟨path, key, entry, rfl, by rw [images_renamed, if_pos rfl], rfl⟩
          | thumbnails =>
              refine .inl ⟨rfl, fun k entry' there' => ?_⟩
              rwa [images_renamed, if_neg (by simp)] at there'
          | temporary => exact absurd permitted.2 id
      | removed folder key => exact .inl ⟨rfl, fun k entry there => images_drop there⟩
      | none b r kept => exact .inl ⟨rfl, fun k entry there => there⟩
  | _ =>
      rw [(perform_frame performed).files (by simp)]
      exact .inl ⟨rfl, fun k entry there => there⟩

theorem lastWrite_kept (permitted : (ls i).permits P a)
    (performed : σ.perform P i a c = some (r, σ')) {k : GoString} (spent : Spent σ.issued ls k) :
    σ'.files.lastWrite.lookup k = σ.files.lastWrite.lookup k := by
  rcases images_written permitted performed with ⟨same, -⟩ | ⟨path, key, entry, rfl, -, eq⟩
  · rw [same]
  · rw [eq, lookup_insert_ite, if_neg]
    rintro rfl
    exact spent.2 i permitted.2.2.1

theorem stamped_step (dated : Stamped σ.files) (permitted : (ls i).permits P a)
    (performed : σ.perform P i a c = some (r, σ')) : Stamped σ'.files := by
  intro k entry there
  rcases images_written permitted performed with ⟨same, kept⟩ | ⟨path, key, placed, rfl, images, eq⟩
  · rw [same]
    exact dated k entry (kept k entry there)
  · rw [images, lookup_insert_ite] at there
    rw [eq, lookup_insert_ite]
    by_cases same : k = key
    · rw [if_pos same] at there ⊢
      cases there
      rfl
    · rw [if_neg same] at there ⊢
      exact dated k entry there

end Files

section Rows

/-- What the rows read for a scan are. -/
theorem imageFiles_reads {records : List ImageFileRecord}
    (performed : σ.perform P i (.statement .imageFiles) c = some (.ok records, σ')) :
    σ'.files = σ.files ∧ σ'.database = σ.database ∧
      ∀ v ∈ σ.database.images, ∃ r ∈ records, r.storageKey = v.storageKey := by
  obtain ⟨answer, rfl⟩ := statement_answer performed (by simp)
  cases answer
  refine ⟨rfl, rfl, fun v member => ?_⟩
  exact ⟨_, List.mem_map_of_mem (orderBy_mem.mpr member), rfl⟩

end Rows

section Steps

/-- The file a cleaner unlinks belongs to no row, and has come of age. -/
theorem Custody.unlinks (h : Custody P requests σ ls ss) {s : Sweep} {key : GoString}
    (sweeping : ss i = some s) (permitted : s.permits (.file (.remove .images key))) :
    (∀ v ∈ σ.database.images, v.storageKey ≠ key) ∧
      ∃ t, σ.files.lastWrite.lookup key = some t ∧ Expired requests σ t := by
  obtain ⟨now, records, entries, time, read, listed, e, member, rfl, condemned⟩ := permitted
  obtain ⟨-, written⟩ := h.listed i s entries sweeping listed e member
  constructor
  · intro v row same
    rcases h.read i s now records sweeping time read v row with ⟨r, known, key⟩ | ⟨t, young, lt⟩
    · exact condemned.unlisted r known (key.trans same)
    · rw [same, written] at young
      cases young
      exact absurd lt (not_lt.mpr condemned.old)
  · refine ⟨e.modifiedAt, written, i, s.age, h.aged i s sweeping, condemned.old.trans ?_⟩
    exact Int.sub_le_sub_right (h.timed i s now sweeping time) _

/-- The file of a row outlives every step. -/
theorem Custody.row_kept (h : Custody P requests σ ls ss) (sound : Sound P requests σ ls)
    (permitted : (ls i).permits P a) (sweeping : ∀ s ∈ ss i, s.permits a)
    (performed : σ.perform P i a c = some (r, σ')) {v : Image} (member : v ∈ σ.database.images) :
    σ'.files.images.lookup v.storageKey = σ.files.images.lookup v.storageKey := by
  refine spent_file permitted performed (sound.keyed.keys v member) ?_
  rintro rfl
  rcases permitted.2 with ⟨f, placed⟩ | dead | ⟨age, -, -, -, asked, -⟩
  · exact sound.keyed.unlisted i _ f placed v member rfl
  · exact sound.keyed.removed i _ dead v member rfl
  · obtain ⟨s, some⟩ := h.swept i age ((sound.made i).symm.trans asked)
    exact (h.unlinks some (sweeping s some)).1 v member rfl

variable {w : World (machine P) Result}

theorem too_young {clock t age : Int} (young : clock - t < age) : ¬ t ≤ clock - age := by omega

theorem still_young {now clock t age : Int} (before : now ≤ clock) (young : clock - t < age) :
    now - age < t := by omega

/-- A row that is stored in time finds its file. -/
theorem Custody.stores (h : Custody P requests w.shared ls ss) (sound : Sound P requests w.shared ls)
    (admitted : Prompt requests w ⟨i, a, c, r⟩) {v : Image} {f : Facts} (stores : v ∈ storedRow a)
    (placed : (ls i).placed = some (v.storageKey, f)) : ∃ content modifiedAt,
      w.shared.files.images.lookup v.storageKey = some ⟨.regular content, modifiedAt⟩ ∧
        f.holdOf P content := by
  obtain ⟨t, written, there | ⟨j, age, asked, old⟩⟩ := h.placed i _ f placed
  · obtain ⟨⟨node, t'⟩, there⟩ := there
    obtain ⟨content, regular, holds⟩ := sound.stored.placed i _ f placed _ there
    obtain rfl : node = .regular content := regular
    exact ⟨content, t', there, holds⟩
  · exact absurd old (too_young (admitted v stores t written j age asked))

theorem Custody.rows_step (h : Custody P requests w.shared ls ss)
    (sound : Sound P requests w.shared ls) (permitted : (ls i).permits P a)
    (sweeping : ∀ s ∈ ss i, s.permits a) (performed : State.perform P w.shared i a c = some (r, σ'))
    (admitted : Prompt requests w ⟨i, a, c, r⟩) : σ'.rowFiles (Recorded P) := by
  intro v member
  rcases row_origin permitted performed member with ⟨u, old, -, key, size, digest⟩ | origin
  · obtain ⟨content, t, there, fits⟩ := h.rows u old
    refine ⟨content, t, ?_, fits.1.trans size, fits.2.trans digest⟩
    rw [← key, h.row_kept sound permitted sweeping performed old]
    exact there
  · obtain ⟨u, f, stores, placed, -, key, size, digest⟩ := origin
    rw [← key] at placed ⊢
    obtain ⟨content, t, there, holds⟩ := h.stores sound admitted (storedBy_row stores) placed
    have files : σ'.files = w.shared.files := by
      refine (perform_frame performed).files ?_
      rintro b rfl
      cases stores
    rw [files]
    exact ⟨content, t, there, (holds.1 _ size).symm, (holds.2.1 _ digest).symm⟩

theorem Expired.later {t : Time} (h : Expired requests σ t) (clock : σ.clock ≤ σ'.clock) :
    Expired requests σ' t := by
  obtain ⟨j, age, asked, old⟩ := h
  exact ⟨j, age, asked, old.trans (Int.sub_le_sub_right clock _)⟩

/-- A file that has been placed stays, or is taken when it has come of age. -/
theorem Custody.placed_step (h : Custody P requests σ ls ss) (sound : Sound P requests σ ls)
    (permitted : (ls i).permits P a) (sweeping : ∀ s ∈ ss i, s.permits a)
    (performed : σ.perform P i a c = some (r, σ')) {k : GoString} {f : Facts}
    (placed : (Function.update ls i ((ls i).record P a r) j).placed = some (k, f)) :
    ∃ t, σ'.files.lastWrite.lookup k = some t ∧
      ((∃ entry, σ'.files.images.lookup k = some entry) ∨ Expired requests σ' t) := by
  have clock := (perform_frame performed).clock
  have older (before : (ls j).placed = some (k, f)) (own : j = i → a ≠ .file (.remove .images k)) :
      ∃ t, σ'.files.lastWrite.lookup k = some t ∧
        ((∃ entry, σ'.files.images.lookup k = some entry) ∨ Expired requests σ' t) := by
    have spent := sound.keyed.placed j k f before
    obtain ⟨t, written, there⟩ := h.placed j k f before
    refine ⟨t, (lastWrite_kept permitted performed spent).trans written, ?_⟩
    rcases there with there | old
    · by_cases removes : a = .file (.remove .images k)
      · -- only a cleaner takes a file that another call has placed
        subst removes
        refine .inr (Expired.later ?_ clock.ge)
        rcases permitted.2 with ⟨g, mine⟩ | dead | ⟨age, -, -, -, asked, -⟩
        · exact absurd rfl (own (sound.keyed.apart j i k f g before mine))
        · exact absurd before (sound.keyed.unplaced i k dead j f)
        · obtain ⟨s, some⟩ := h.swept i age ((sound.made i).symm.trans asked)
          obtain ⟨-, t', written', expired⟩ := h.unlinks some (sweeping s some)
          cases written.symm.trans written'
          exact expired
      · rw [spent_file permitted performed spent removes]
        exact .inl there
    · exact .inr (old.later clock.ge)
  by_cases self : j = i
  · subst self
    rw [Function.update_self] at placed
    rcases placed_cases permitted performed placed with ⟨before, other⟩ | ⟨⟨entry, there⟩, -⟩
    · exact older before fun _ => other
    · exact ⟨entry.modifiedAt, stamped_step h.dated permitted performed k entry there,
        .inl ⟨entry, there⟩⟩
  · rw [Function.update_of_ne self] at placed
    exact older placed fun same => absurd same self

/-- What a sweep can note of one action. -/
theorem sweep_record (s : Sweep) (a : Action) (r : Response a) :
    (s.record a r).age = s.age ∧
      ((s.record a r).time = s.time ∨ ∃ t, (⟨a, r⟩ : Answer Response) = ⟨.now, t⟩ ∧
        (s.record a r).time = some t) ∧
      ((s.record a r).records = s.records ∨ ∃ records,
        (⟨a, r⟩ : Answer Response) = ⟨.statement .imageFiles, .ok records⟩ ∧
          (s.record a r).records = some records) ∧
      ((s.record a r).entries = s.entries ∨ ∃ entries,
        (⟨a, r⟩ : Answer Response) = ⟨.file (.list .images), .ok entries⟩ ∧
          (s.record a r).entries = some entries) := by
  unfold Sweep.record
  split
  · exact ⟨rfl, .inr ⟨_, rfl, rfl⟩, .inl rfl, .inl rfl⟩
  · exact ⟨rfl, .inl rfl, .inr ⟨_, rfl, rfl⟩, .inl rfl⟩
  · exact ⟨rfl, .inl rfl, .inl rfl, .inr ⟨_, rfl, rfl⟩⟩
  · exact ⟨rfl, .inl rfl, .inl rfl, .inl rfl⟩

variable {s' : Sweep}

/-- The sweeps after an action of caller `i`. -/
abbrev resweep (ss : Nat → Option Sweep) (i : Nat) (a : Action) (r : Response a) :
    Nat → Option Sweep :=
  Function.update ss i ((ss i).map fun s => s.record a r)

theorem resweep_some (sweeping : resweep ss i a r j = some s') :
    ∃ s, ss j = some s ∧ (s' = s ∨ j = i ∧ s' = s.record a r) := by
  by_cases self : j = i
  · subst self
    rw [resweep, Function.update_self] at sweeping
    obtain ⟨s, some, rfl⟩ := Option.map_eq_some_iff.mp sweeping
    exact ⟨s, some, .inr ⟨rfl, rfl⟩⟩
  · rw [resweep, Function.update_of_ne self] at sweeping
    exact ⟨s', sweeping, .inl rfl⟩

theorem Custody.timed_step (h : Custody P requests σ ls ss)
    (performed : σ.perform P i a c = some (r, σ')) {now : Time}
    (sweeping : resweep ss i a r j = some s') (time : s'.time = some now) : now ≤ σ'.clock := by
  rw [(perform_frame performed).clock]
  obtain ⟨s, some, rfl | ⟨rfl, rfl⟩⟩ := resweep_some sweeping
  · exact h.timed j s' now some time
  · rcases (sweep_record s a r).2.1 with same | ⟨t, read, noted⟩
    · exact h.timed j s now some (same.symm.trans time)
    · cases read
      rw [noted] at time
      cases time
      cases performed
      exact Int.le_refl _

theorem Custody.listed_step (h : Custody P requests σ ls ss) (sound : Sound P requests σ ls)
    (permitted : (ls i).permits P a) (performed : σ.perform P i a c = some (r, σ'))
    {entries : List FileEntry} (sweeping : resweep ss i a r j = some s')
    (listed : s'.entries = some entries) : ∀ e ∈ entries,
      Spent σ'.issued (Function.update ls i ((ls i).record P a r)) e.key ∧
        σ'.files.lastWrite.lookup e.key = some e.modifiedAt := by
  intro e member
  suffices known : Spent σ.issued ls e.key ∧ σ.files.lastWrite.lookup e.key = some e.modifiedAt from
    ⟨known.1.step performed, (lastWrite_kept permitted performed known.1).trans known.2⟩
  obtain ⟨s, some, rfl | ⟨rfl, rfl⟩⟩ := resweep_some sweeping
  · exact h.listed j s' entries some listed e member
  · rcases (sweep_record s a r).2.2.2 with same | ⟨listing, read, noted⟩
    · exact h.listed j s entries some (same.symm.trans listed) e member
    · cases read
      rw [noted] at listed
      cases listed
      obtain ⟨files, done, rfl⟩ := file_state performed
      rw [list_reads done] at member
      obtain ⟨entry, there, same⟩ := mem_listDirectory member
      refine ⟨sound.keyed.files _ entry there, ?_⟩
      rw [h.dated _ entry there, same]
      unfold entryOf
      split <;> rfl

theorem Custody.read_step {w : World (machine P) Result} (h : Custody P requests w.shared ls ss)
    (sound : Sound P requests w.shared ls) (permitted : (ls i).permits P a)
    (allowed : ∀ s ∈ ss i, s.permits a) (performed : State.perform P w.shared i a c = some (r, σ'))
    (admitted : Prompt requests w ⟨i, a, c, r⟩) {now : Time} {records : List ImageFileRecord}
    (sweeping : resweep ss i a r j = some s') (time : s'.time = some now)
    (read : s'.records = some records) : ∀ v ∈ σ'.database.images,
      (∃ r ∈ records, r.storageKey = v.storageKey) ∨
        ∃ t, σ'.files.lastWrite.lookup v.storageKey = some t ∧ now - effectiveAge s'.age < t := by
  intro v member
  have before : now ≤ w.shared.clock := by
    rw [← (perform_frame performed).clock]
    exact h.timed_step performed sweeping time
  obtain ⟨s, asking, same⟩ := resweep_some sweeping
  have age : s'.age = s.age := by
    rcases same with rfl | ⟨-, rfl⟩
    · rfl
    · exact (sweep_record s a r).1
  rcases row_origin permitted performed member with ⟨u, old, -, key, -⟩ | origin
  · have known : (∃ r ∈ records, r.storageKey = u.storageKey) ∨ ∃ t,
        w.shared.files.lastWrite.lookup u.storageKey = some t ∧ now - effectiveAge s.age < t := by
      rcases same with rfl | ⟨rfl, rfl⟩
      · exact h.read j s' now records asking time read u old
      · obtain ⟨-, times, rows, -⟩ := sweep_record s a r
        rcases rows with rows | ⟨found, reads, noted⟩
        · rcases times with times | ⟨t, reads, -⟩
          · exact h.read j s now records asking (times.symm.trans time) (rows.symm.trans read) u old
          · -- the clock is read before the rows are
            cases reads
            have unread : s.records = none := allowed s asking
            rw [rows, unread] at read
            cases read
        · cases reads
          rw [noted] at read
          cases read
          exact .inl ((imageFiles_reads performed).2.2 u old)
    rw [← key, age, lastWrite_kept permitted performed (sound.keyed.keys u old)]
    exact known
  · -- a row that has been stored after the clock was read has a young file
    obtain ⟨u, f, stores, placed, -, key, -⟩ := origin
    obtain ⟨t, written, -⟩ := h.placed i _ f placed
    refine .inr ⟨t, ?_, ?_⟩
    · rw [lastWrite_kept permitted performed (sound.keyed.placed i _ f placed)]
      exact written
    · rw [← key] at written
      have young := admitted u (storedBy_row stores) t written j s.age (h.aged j s asking)
      rw [age]
      exact still_young before young

theorem Custody.step {w : World (machine P) Result} (h : Custody P requests w.shared ls ss)
    (sound : Sound P requests w.shared ls) (permitted : (ls i).permits P a)
    (allowed : ∀ s ∈ ss i, s.permits a) (performed : State.perform P w.shared i a c = some (r, σ'))
    (admitted : Prompt requests w ⟨i, a, c, r⟩) :
    Custody P requests σ' (Function.update ls i ((ls i).record P a r)) (resweep ss i a r) where
  rows := h.rows_step sound permitted allowed performed admitted
  dated := stamped_step h.dated permitted performed
  placed _ _ _ placed := h.placed_step sound permitted allowed performed placed
  aged j s' sweeping := by
    obtain ⟨s, some, rfl | ⟨rfl, rfl⟩⟩ := resweep_some sweeping
    · exact h.aged j s' some
    · rw [(sweep_record s a r).1]
      exact h.aged j s some
  swept j age asked := by
    obtain ⟨s, some⟩ := h.swept j age asked
    by_cases self : j = i
    · subst self
      exact ⟨s.record a r, by rw [resweep, Function.update_self, some]; rfl⟩
    · exact ⟨s, by rw [resweep, Function.update_of_ne self]; exact some⟩
  timed _ _ _ sweeping time := h.timed_step performed sweeping time
  listed _ _ _ sweeping listed := h.listed_step sound permitted performed sweeping listed
  read _ _ _ _ sweeping time read :=
    h.read_step sound permitted allowed performed admitted sweeping time read

theorem Custody.environment (h : Custody P requests σ ls ss) (moved : σ.environment σ') :
    Custody P requests σ' ls ss := by
  obtain ⟨t, later, rfl⟩ := moved
  refine ⟨h.rows, h.dated, ?_, h.aged, h.swept, ?_, h.listed, h.read⟩
  · intro j k f placed
    obtain ⟨t', written, there | old⟩ := h.placed j k f placed
    · exact ⟨t', written, .inl there⟩
    · exact ⟨t', written, .inr (old.later later)⟩
  · exact fun j s now sweeping time => (h.timed j s now sweeping time).trans later

theorem Custody.begin (dated : Stamped σ.files) (rows : σ.rowFiles (Recorded P)) :
    Custody P requests σ (fun j => Ledger.begin (requests j)) fun j => sweepOf (requests j) := by
  have blank : ∀ j s, sweepOf (requests j) = some s →
      requests j = .daily s.age ∧ s = .begin s.age := by
    intro j s sweeping
    unfold sweepOf at sweeping
    split at sweeping
    · cases sweeping
      exact ⟨by assumption, rfl⟩
    · cases sweeping
  refine ⟨rows, dated, ?_, fun j s sweeping => (blank j s sweeping).1, ?_, ?_, ?_, ?_⟩
  · intro j k f placed
    cases placed
  · intro j age asked
    exact ⟨.begin age, by rw [asked]; rfl⟩
  · intro j s now sweeping time
    rw [(blank j s sweeping).2] at time
    cases time
  · intro j s entries sweeping listed
    rw [(blank j s sweeping).2] at listed
    cases listed
  · intro j s now records sweeping time
    rw [(blank j s sweeping).2] at time
    cases time

theorem Custody.restart (h : Custody P requests σ ls ss) (moved : σ.restart σ') :
    Custody P requests σ' (fun j => Ledger.begin (requests j)) fun j => sweepOf (requests j) := by
  obtain ⟨t, -, rfl⟩ := moved
  exact .begin h.dated h.rows

end Steps

section Runs

/-- The sweeps of all calls. -/
abbrev sweeps (P : Platform) (requests : Nat → Request) : Watch (machine P) Result where
  discipline := sweepDiscipline.optional
  begin i := sweepOf (requests i)
  Final _ _ _ := True

theorem request_sweeps (request : Request) :
    (request.program P).Obeys sweepDiscipline.optional (fun _ _ => True) (sweepOf request) := by
  cases request with
  | daily age =>
      refine Program.Obeys.bind (daily_sweeps age).followed ?_
      exact fun _ _ _ => trivial
  | _ => exact (Program.obeys_unfollowed _).mono fun _ _ _ => trivial

theorem custody_beside : (watch P requests).KeepsBeside (sweeps P requests) (prompt P requests)
    (fun _ σ ls => Sound P requests σ ls ∧ True) fun _ σ ls ss => Custody P requests σ ls ss where
  call := by
    rintro τ w ls ss i a next c r σ - - ⟨sound, -⟩ custody - permitted allowed performed admitted
    exact ⟨fun _ _ => trivial, custody.step sound permitted allowed performed admitted⟩
  environment := fun _ custody moved => custody.environment moved
  crash := fun _ _ _ _ _ _ _ custody moved =>
    ⟨custody.restart moved, fun _ => trivial, fun i => request_sweeps (requests i)⟩

/-- In every state that any run reaches, whatever fails and whenever the process crashes, each row has
a regular file of the size and the digest that the row records. -/
theorem rows_keep_files {w : World (machine P) Result} {τ : List (Event (machine P))}
    (registered : Registered σ) (free : σ.locks = .free) (dated : Stamped σ.files)
    (rows : σ.rowFiles (Recorded P)) (run : Run (prompt P requests) (start P requests σ) τ w) :
    w.shared.rowFiles (Recorded P) := by
  have sound : (watch P requests).Keeps (prompt P requests) fun _ σ ls =>
      Sound P requests σ ls ∧ True :=
    keeps ⟨rfl, rfl⟩ (fun _ _ _ => True) (fun _ _ _ _ _ _ => trivial) (fun _ _ _ => trivial)
      fun _ _ _ _ _ _ _ _ => trivial
  obtain ⟨ls, ss, -, -, -, custody⟩ :=
    run.held_beside sound custody_beside ⟨_, _, fun i => request_obeys (requests i),
      fun i => request_sweeps (requests i), ⟨.begin registered free, trivial⟩, .begin dated rows⟩
  exact custody.rows

end Runs

section Sample

/-- Every file is younger than an hour. -/
def fresh (σ : State) : Bool :=
  decide (∀ k ∈ σ.files.lastWrite.keys, ∀ t ∈ σ.files.lastWrite.lookup k,
    σ.clock - t < 3600 * second)

def cleanAndConvert : Nat → Request
  | 0 => .daily (3600 * second)
  | _ => sampleConversion

theorem fresh_prompt {P : Platform} (w : World (machine P) Result) (e : Event (machine P))
    (young : fresh w.shared = true) : Prompt cleanAndConvert w e := by
  intro v _ t written j age asked
  obtain rfl : age = 3600 * second := by
    cases j with
    | zero =>
        cases asked
        rfl
    | succ j => cases asked
  rw [effectiveAge, if_neg (by decide)]
  exact of_decide_eq_true young _ (Finmap.mem_keys.mpr (Finmap.mem_of_lookup_eq_some written)) t written

/-- The cleaner reads the rows, a conversion gives the image another file and removes the old one, and
the cleaner goes on with what it has read. -/
def cleaning : List (Nat × Choice) :=
  [(0, .normal), (0, .normal)] ++ converting ++ List.replicate 5 (1, .normal) ++
    List.replicate 7 (0, .normal)

theorem rows_keep_files_sample : ∃ (τ : List (Event (machine convertingPlatform)))
    (w : World (machine convertingPlatform) Result),
    Run (prompt convertingPlatform cleanAndConvert) (start convertingPlatform cleanAndConvert
      (sampleState Processor.pngSignature (str "image/png") .isPublic (by decide))) τ w ∧
    w.shared.database.images.map Image.storageKey = [str "b"] ∧
    w.shared.rowFiles (Recorded convertingPlatform) := by
  have executed : ((start convertingPlatform cleanAndConvert (sampleState Processor.pngSignature
      (str "image/png") .isPublic (by decide))).executeWithin fresh cleaning).any (fun out =>
        out.2.shared.database.images.map Image.storageKey = [str "b"]) = true := by
    decide +kernel
  obtain ⟨⟨τ, w⟩, executed, renamed⟩ := (Option.any_eq_true _ _).mp executed
  have run : Run (prompt convertingPlatform cleanAndConvert) _ τ w :=
    .of_executeWithin fresh fresh_prompt cleaning executed
  refine ⟨τ, w, run, of_decide_eq_true renamed, ?_⟩
  refine rows_keep_files sample_begins.registered sample_begins.free ?_ (sample_rowFiles ⟨rfl, rfl⟩)
    run
  intro k entry there
  rw [sampleState, loaded_files] at there ⊢
  obtain rfl : k = str "a" :=
    (Finmap.mem_singleton _ _ _).mp (Finmap.mem_of_lookup_eq_some there)
  cases there
  exact Finmap.lookup_singleton_eq

end Sample

end ImageSilo.Publication
