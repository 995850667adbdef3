import ImageSilo.Publication.Index
import ImageSilo.System.Snapshot

/-! A target names a key whose file, if there is one, has the digest and the format of the target. -/
namespace ImageSilo.Publication

open Go Concurrent Storage Tables Delivery

/-- The headers of a target tell the digest and the format of the content. -/
def Heads (P : Platform) (t : Target) (content : Bytes) : Prop :=
  t.etag = etag (P.sha256 content) ∧ Processor.contentMIME content = some t.mimeType

structure Faithful (P : Platform) (σ : State) (ls : Nat → Ledger) (t : Target) : Prop where
  spent : Spent σ.issued ls t.storageKey
  heads : ∀ entry, σ.files.images.lookup t.storageKey = some entry →
    ∃ content, entry.node = .regular content ∧ Heads P t content

/-- Every target in sight is faithful to its file, and so is what has been opened. -/
structure Truthful (P : Platform) (σ : State) (ls : Nat → Ledger) : Prop where
  rows : ∀ v ∈ σ.database.images, Faithful P σ ls (targetOf v)
  index : ∀ id t, σ.index.byID.lookup id = some t → Faithful P σ ls t
  owed : ∀ j id t, IndexStep.add id t ∈ (ls j).owes → Faithful P σ ls t
  looked : ∀ j t, (ls j).looked = some (some t) → Faithful P σ ls t
  opened : ∀ j t bytes, (ls j).looked = some (some t) → (ls j).opened = some (.ok bytes) →
    Heads P t bytes

variable {P : Platform} {requests : Nat → Request} {σ σ' : State} {ls : Nat → Ledger} {i : Nat}
  {a : Action} {c : Choice} {r : Response a} {t t' : Target}

theorem Faithful.like (h : Faithful P σ ls t) (key : t'.storageKey = t.storageKey)
    (etag : t'.etag = t.etag) (mimeType : t'.mimeType = t.mimeType) : Faithful P σ ls t' := by
  constructor
  · rw [key]
    exact h.spent
  · rw [key]
    intro entry there
    obtain ⟨content, regular, digest, format⟩ := h.heads entry there
    exact ⟨content, regular, etag.trans digest, by rw [mimeType]; exact format⟩

theorem Faithful.step (h : Faithful P σ ls t) (permitted : (ls i).permits P a)
    (performed : σ.perform P i a c = some (r, σ')) :
    Faithful P σ' (Function.update ls i ((ls i).record P a r)) t where
  spent := h.spent.step performed
  heads entry there := h.heads entry (images_kept permitted performed h.spent there)

/-- The row of an image that its call has placed a file for. -/
theorem Sound.faithful (sound : Sound P requests σ ls) {v : Image} {f : Facts}
    (placed : (ls i).placed = some (v.storageKey, f)) (describes : f.describe v) :
    Faithful P σ ls (targetOf v) where
  spent := sound.keyed.placed i _ f placed
  heads entry there := by
    obtain ⟨content, regular, -, digest, mime⟩ := sound.stored.placed i _ f placed entry there
    refine ⟨content, regular, ?_, ?_⟩
    · rw [← digest v.storedSHA256 describes.2.1]
      rfl
    · exact mime v.mimeType describes.2.2

theorem Truthful.rows_step (h : Truthful P σ ls) (sound : Sound P requests σ ls)
    (permitted : (ls i).permits P a) (performed : σ.perform P i a c = some (r, σ')) :
    ∀ v ∈ σ'.database.images, Faithful P σ ls (targetOf v) := by
  cases a with
  | statement q =>
      have permitted := permitted.2
      have change := statement_change performed
      generalize σ'.database = db' at change
      cases change with
      | created v db' stored =>
          obtain ⟨-, -, -, -, f, placed, describes⟩ := permitted
          rw [(insertImage_some stored).1]
          intro w member
          rcases List.mem_append.mp member with old | new
          · exact h.rows w old
          · obtain rfl := List.mem_singleton.mp new
            exact (sound.faithful placed describes).like rfl rfl rfl
      | imported v m db₁ db₂ stored mapped =>
          obtain ⟨-, -, -, -, ⟨f, placed, describes⟩, -⟩ := permitted
          rw [(insertAlias_some mapped).1, (insertImage_some stored).1]
          intro w member
          rcases List.mem_append.mp member with old | new
          · exact h.rows w old
          · obtain rfl := List.mem_singleton.mp new
            exact (sound.faithful placed describes).like rfl rfl rfl
      | erased id row found => exact fun w member => h.rows w (mem_removeImage.mp member).1
      | erasedUnseen id row found => exact fun w member => h.rows w (mem_removeImage.mp member).1
      | shown id visibility row db' found replaced =>
          intro w member
          rcases mem_replaced replaced member with rfl | ⟨old, -⟩
          · exact (h.rows row (image?_some found).1).like rfl rfl rfl
          · exact h.rows w old
      | replaced v row db' found replaced =>
          obtain ⟨-, -, -, -, f, placed, describes⟩ := permitted
          intro w member
          rcases mem_replaced replaced member with rfl | ⟨old, -⟩
          · exact (sound.faithful placed describes).like rfl rfl rfl
          · exact h.rows w old
      | aliased m db' present mapped =>
          rw [(insertAlias_some mapped).1]
          exact h.rows
      | unaliased id row found => exact h.rows
      | unaliasedUnseen id row found => exact h.rows
      | none q r db' reading images aliases =>
          rw [images]
          exact h.rows
  | _ =>
      rw [(perform_frame performed).database (by simp)]
      exact h.rows

theorem Truthful.index_step (h : Truthful P σ ls) (sound : Sound P requests σ ls)
    (permitted : (ls i).permits P a) (performed : σ.perform P i a c = some (r, σ')) :
    ∀ id t, σ'.index.byID.lookup id = some t → Faithful P σ ls t := by
  intro id t there
  rcases index_entered sound permitted performed there with
    ⟨there, -, -⟩ | ⟨visibility, old, -, -, known, rfl⟩ | owed | ⟨v, member, -, rfl⟩
  · exact h.index id t there
  · exact (h.index id old known).like rfl rfl rfl
  · exact h.owed i id t owed
  · exact (h.rows v member).like rfl rfl rfl

theorem Truthful.owed_step (h : Truthful P σ ls) (sound : Sound P requests σ ls)
    (permitted : (ls i).permits P a) (performed : σ.perform P i a c = some (r, σ')) :
    ∀ id t, IndexStep.add id t ∈ ((ls i).record P a r).owes → Faithful P σ ls t := by
  intro id t member
  cases a with
  | statement q =>
      have change := statement_change performed
      obtain ⟨idle, permitted⟩ := permitted
      generalize σ'.database = db' at change
      cases change with
      | created v db' stored =>
          obtain ⟨-, -, -, -, f, placed, describes⟩ := permitted
          cases List.mem_singleton.mp member
          exact sound.faithful placed describes
      | imported v m db₁ db₂ stored mapped =>
          obtain ⟨-, -, -, -, ⟨f, placed, describes⟩, -⟩ := permitted
          rcases List.mem_cons.mp member with eq | rest
          · cases eq
            exact sound.faithful placed describes
          · cases List.mem_singleton.mp rest
      | replaced v row db' found replaced =>
          obtain ⟨-, -, -, -, f, placed, describes⟩ := permitted
          cases List.mem_singleton.mp member
          exact sound.faithful placed describes
      | erased id row found => cases List.mem_singleton.mp member
      | shown id visibility row db' found replaced => cases List.mem_singleton.mp member
      | aliased m db' present mapped => cases List.mem_singleton.mp member
      | unaliased id row found => cases List.mem_singleton.mp member
      | erasedUnseen id row found =>
          have owes : (ls i).owes = _ := idle
          change IndexStep.add _ t ∈ (ls i).owes at member
          simp [owes] at member
      | unaliasedUnseen id row found =>
          have owes : (ls i).owes = _ := idle
          change IndexStep.add _ t ∈ (ls i).owes at member
          simp [owes] at member
      | none q r db' reading images aliases =>
          obtain ⟨_, _, _, _, _, _, eq⟩ := reading_frame (P := P) (ls i) reading
          rw [Ledger.record, eq] at member
          exact h.owed i id t member
  | _ => exact h.owed i id t (record_owes (by simp) _ member)

theorem Truthful.looked_step (h : Truthful P σ ls) (performed : σ.perform P i a c = some (r, σ'))
    (found : ((ls i).record P a r).looked = some (some t)) : Faithful P σ ls t := by
  cases a with
  | getTarget id =>
      cases performed
      exact h.index id t (Option.some.inj found)
  | getAlias path =>
      cases performed
      obtain ⟨id, -, there⟩ := Option.bind_eq_some_iff.mp (Option.some.inj found)
      exact h.index id t there
  | _ =>
      rw [record_looked (P := P) (ls i) _ r (by simp) (by simp)] at found
      exact h.looked i t found

theorem Truthful.opened_step (h : Truthful P σ ls) (permitted : (ls i).permits P a)
    (performed : σ.perform P i a c = some (r, σ')) {bytes : Bytes}
    (found : ((ls i).record P a r).looked = some (some t))
    (opened : ((ls i).record P a r).opened = some (.ok bytes)) : Heads P t bytes := by
  by_cases opens : ∃ key, a = .file (.openImage key)
  · obtain ⟨key, rfl⟩ := opens
    rw [record_looked (P := P) (ls i) _ r (by simp) (by simp)] at found
    rcases permitted.2 with ⟨row, rest, L, loading, -⟩ | ⟨idle, target, looked, rfl, -⟩
    · rw [openImage_rows loading] at opened
      exact h.opened i t bytes found opened
    · obtain ⟨files, done, rfl⟩ := file_state performed
      rw [looked] at found
      cases found
      have read : r = .ok bytes := by
        rcases @openImage_opened P t.storageKey (ls i) r with ⟨-, set⟩ | loading
        · rw [set] at opened
          exact Option.some.inj opened
        · exact absurd idle loading
      subst read
      obtain ⟨now, there⟩ := openImage_reads done
      obtain ⟨content, regular, heads⟩ := (h.looked i t looked).heads _ there
      cases regular
      exact heads
  · by_cases target : ∃ id, a = .getTarget id
    · obtain ⟨id, rfl⟩ := target
      cases opened
    by_cases mapped : ∃ path, a = .getAlias path
    · obtain ⟨path, rfl⟩ := mapped
      cases opened
    simp only [not_exists] at opens target mapped
    rw [record_looked _ _ _ target mapped] at found
    rw [record_opened _ _ _ target mapped opens] at opened
    exact h.opened i t bytes found opened

theorem Truthful.step (h : Truthful P σ ls) (sound : Sound P requests σ ls)
    (permitted : (ls i).permits P a) (performed : σ.perform P i a c = some (r, σ')) :
    Truthful P σ' (Function.update ls i ((ls i).record P a r)) where
  rows v member := (h.rows_step sound permitted performed v member).step permitted performed
  index id t there := (h.index_step sound permitted performed id t there).step permitted performed
  owed j id t member := by
    by_cases self : j = i
    · rw [self, Function.update_self] at member
      exact (h.owed_step sound permitted performed id t member).step permitted performed
    · rw [Function.update_of_ne self] at member
      exact (h.owed j id t member).step permitted performed
  looked j t found := by
    by_cases self : j = i
    · rw [self, Function.update_self] at found
      exact (h.looked_step performed found).step permitted performed
    · rw [Function.update_of_ne self] at found
      exact (h.looked j t found).step permitted performed
  opened j t bytes found opened := by
    by_cases self : j = i
    · rw [self, Function.update_self] at found opened
      exact h.opened_step permitted performed found opened
    · rw [Function.update_of_ne self] at found opened
      exact h.opened j t bytes found opened

theorem Truthful.begin (begins : Begins P σ) (recorded : σ.rowFiles fun v content =>
      P.sha256 content = v.storedSHA256 ∧ Processor.contentMIME content = some v.mimeType) :
    Truthful P σ fun j => Ledger.begin (requests j) := by
  have rows : ∀ v ∈ σ.database.images,
      Faithful P σ (fun j => Ledger.begin (requests j)) (targetOf v) := by
    intro v member
    obtain ⟨content, modifiedAt, there, digest, format⟩ := recorded v member
    refine ⟨⟨begins.registered.keys v member, by simp [Ledger.begin]⟩, ?_⟩
    intro entry found
    obtain rfl : entry = ⟨.regular content, modifiedAt⟩ :=
      Option.some.inj (found.symm.trans there)
    refine ⟨content, rfl, ?_, format⟩
    rw [digest]
    rfl
  refine ⟨rows, ?_, ?_, ?_, ?_⟩
  · obtain ⟨L, built, eq⟩ := begins.indexed
    intro id t there
    rw [eq] at there
    obtain ⟨v, member, -, -, rfl⟩ := ((built_describes built).target id t).mp there
    exact (rows v member).like rfl rfl rfl
  · simp [Ledger.begin]
  · simp [Ledger.begin]
  · simp [Ledger.begin]

theorem Truthful.restart (h : Truthful P σ ls) (moved : σ.restart σ') :
    Truthful P σ' fun j => Ledger.begin (requests j) := by
  obtain ⟨t, -, rfl⟩ := moved
  refine ⟨?_, ?_, ?_, ?_, ?_⟩
  · intro v member
    have faithful := h.rows v member
    exact ⟨⟨faithful.spent.1, by simp [Ledger.begin]⟩, faithful.heads⟩
  · simp [Index.empty]
  · simp [Ledger.begin]
  · simp [Ledger.begin]
  · simp [Ledger.begin]

theorem truthful_keeps : (watch P requests).Keeps (anything P requests)
    fun _ σ ls => Sound P requests σ ls ∧ Truthful P σ ls := by
  refine keeps serving_serves (fun _ σ ls => Truthful P σ ls) ?_ ?_ ?_
  · exact fun sound h permitted performed _ _ => h.step sound permitted performed
  · rintro τ σ ls σ' - h ⟨t, -, rfl⟩
    have kept : ∀ t', Faithful P σ ls t' → Faithful P { σ with clock := t } ls t' :=
      fun t' faithful => ⟨faithful.spent, faithful.heads⟩
    exact ⟨fun v member => kept _ (h.rows v member), fun id t there => kept t (h.index id t there),
      fun j id t member => kept t (h.owed j id t member),
      fun j t found => kept t (h.looked j t found), h.opened⟩
  · exact fun _ _ _ _ _ _ h moved => h.restart moved

/-- Under a spent key there is never a file that was not there before. -/
theorem spent_keeps (k : GoString) (d : Directory) : (watch P requests).Keeps (anything P requests)
    fun _ σ ls => Sound P requests σ ls ∧ Spent σ.issued ls k ∧
      ∀ entry, σ.files.images.lookup k = some entry → d.lookup k = some entry := by
  refine keeps serving_serves (fun _ σ ls => Spent σ.issued ls k ∧
    ∀ entry, σ.files.images.lookup k = some entry → d.lookup k = some entry) ?_ ?_ ?_
  · intro τ w ls i a c r σ' _ h permitted performed _ _
    refine ⟨h.1.step performed, ?_⟩
    exact fun entry there => h.2 entry (images_kept permitted performed h.1 there)
  · rintro τ σ ls σ' - h ⟨t, -, rfl⟩
    exact h
  · rintro - τ σ ls σ' - h ⟨t, -, rfl⟩
    exact ⟨⟨h.1.1, by simp [Ledger.begin]⟩, h.2⟩

/-- Whoever is answered with a file gets the digest and the format that the headers tell, and the file
of a key that is in the index is never given other content. -/
theorem served_content {w : World (machine P) Result} {τ : List (Event (machine P))}
    (begins : Begins P σ) (recorded : σ.rowFiles fun v content =>
      P.sha256 content = v.storedSHA256 ∧ Processor.contentMIME content = some v.mimeType)
    (run : Run (anything P requests) (start P requests σ) τ w) :
    (∀ i r t bytes, requests i = .serve r → w.calls i = .done (.replied (.content t bytes)) →
        Heads P t bytes) ∧
      ∀ id t, w.shared.index.byID.lookup id = some t →
        ∀ τ' w', Run (anything P requests) w τ' w' →
          ∀ entry, w'.shared.files.images.lookup t.storageKey = some entry →
            w.shared.files.images.lookup t.storageKey = some entry := by
  obtain ⟨ls, obeyed, sound, truthful⟩ := followed truthful_keeps begins.registered begins.free
    (Truthful.begin begins recorded) run
  constructor
  · intro i r t bytes serves replied
    obtain ⟨looked, opened, -⟩ := served obeyed serves replied
    exact truthful.opened i t bytes looked opened
  · intro id t there τ' w' later
    have spent := (truthful.index id t there).spent
    obtain ⟨-, -, -, -, kept⟩ := later.held (spent_keeps t.storageKey w.shared.files.images)
      ⟨ls, obeyed, sound, spent, fun _ there => there⟩
    exact kept

def viewAndConvert : Nat → Request
  | 0 => .serve sampleRequest
  | _ => sampleConversion

/-- Between the lookup and the opening the row and the index go over to the converted file. -/
def convertedMeanwhile : List (Nat × Choice) :=
  (0, .normal) :: converting ++ [(1, .normal), (1, .normal), (0, .normal)]

theorem served_content_sample : ∃ τ w t,
    Run (anything convertingPlatform viewAndConvert) (start convertingPlatform viewAndConvert
      (sampleState Processor.pngSignature (str "image/png") .isPublic (by decide))) τ w ∧
    w.calls 0 = .done (.replied (.content t Processor.pngSignature)) ∧ t.storageKey = str "a" ∧
    (∃ u, w.shared.index.byID.lookup (str "a") = some u ∧ u.storageKey = str "b") ∧
    Heads convertingPlatform t Processor.pngSignature := by
  have run := scheduled convertingPlatform viewAndConvert
    (sampleState Processor.pngSignature (str "image/png") .isPublic (by decide)) convertedMeanwhile rfl
  exact ⟨_, _, _, run, rfl, rfl, ⟨_, rfl, rfl⟩,
    (served_content converting_begins (sample_rowFiles ⟨rfl, by decide⟩) run).1 0 sampleRequest _ _
      rfl rfl⟩

/-- A lookup and an opening of the sample image. -/
def twoSteps : List (Nat × Choice) := [(0, .normal), (0, .normal)]

/-- The digests alone do not make a response whole: a row may record another format than its file
has. -/
theorem digests_alone_mislead : ¬ ∀ (P : Platform) (requests : Nat → Request) (σ : State)
    (τ : List (Event (machine P))) (w : World (machine P) Result), Begins P σ →
    σ.rowFiles (fun v content => P.sha256 content = v.storedSHA256) →
    Run (anything P requests) (start P requests σ) τ w →
    ∀ i r t bytes, requests i = .serve r → w.calls i = .done (.replied (.content t bytes)) →
      Heads P t bytes := by
  intro claim
  have run := scheduled samplePlatform (fun _ => .serve sampleRequest)
    (sampleState Processor.pngSignature (str "image/jpeg") .isPublic (by decide)) twoSteps rfl
  have heads := claim _ _ _ _ _ sample_begins (sample_rowFiles rfl) run 0 sampleRequest _ _ rfl rfl
  exact absurd heads.2 (by decide)

end ImageSilo.Publication
