import ImageSilo.Concurrent.Traces
import ImageSilo.Guarantees.Inspection
import ImageSilo.Publication.Soundness

/-! A scan reads the rows and lists the images directory later, under no lock; only a conversion in
between makes it miscount. -/
namespace ImageSilo.Publication

open Go Concurrent Storage Tables

variable {P : Platform} {requests : Nat → Request} {σ : State} {i : Nat} {id : GoString} {now : Time}

/-- The file under the key of the row is a regular one of the recorded size. -/
def fileFits (d : Directory) (v : Image) : Bool :=
  match d.lookup v.storageKey with
  | some ⟨.regular content, _⟩ => content.length == v.storedSize
  | _ => false

/-- The image has a row, and its row has its file. -/
def InPlace (id : GoString) (σ : State) : Prop :=
  ∃ v ∈ σ.database.images, v.id = id ∧ fileFits σ.files.images v = true

instance (id : GoString) (σ : State) : Decidable (InPlace id σ) :=
  inferInstanceAs (Decidable (∃ v ∈ σ.database.images, v.id = id ∧ fileFits σ.files.images v = true))

/-- The update of an image's content by a conversion that takes effect. -/
def Rewrites (id : GoString) (e : Event (machine P)) : Prop :=
  ∃ j v c, e = ⟨j, .statement (.updateContent v), c, .ok true⟩ ∧ v.id = id

theorem fileFits_listed {d : Directory} {v : Image} (fits : fileFits d v = true) :
    ∃ e ∈ listDirectory d, e.key = v.storageKey ∧ e.regular = true ∧ e.size = v.storedSize := by
  unfold fileFits at fits
  split at fits
  · rename_i content modifiedAt there
    exact ⟨_, listDirectory_mem there, rfl, rfl, by simpa [entryOf] using fits⟩
  · cases fits

theorem list_reads {files files' : Files} {folder : Folder} {entries : List FileEntry} {t : Time}
    {c : Choice} (performed : files.perform P t (.list folder) c = some (.ok entries, files')) :
    entries = listDirectory (files.directory folder) := by
  unfold Files.perform at performed
  cases c with
  | normal =>
      simp only [Option.some.injEq, Prod.mk.injEq, Except.ok.injEq] at performed
      exact performed.1.symm
  | _ => simp [FileAction.failed] at performed

section Answers

theorem returning_yields {α : Type} {p : Call α} {f : α → Result} {answers : List (Answer Response)}
    {result : Result} (h : (returning p f).Yields answers result) :
    ∃ u, p.Yields answers u ∧ result = f u := by
  obtain ⟨u, first, second, rfl, here, later⟩ := Program.yields_bind.mp h
  obtain ⟨rfl, rfl⟩ := Program.yields_pure.mp later
  exact ⟨u, by simpa using here, rfl⟩

theorem scan_yields {answers : List (Answer Response)} {s : ScanState}
    (h : scan.Yields answers (.ok s)) : ∃ rest, answers =
      ⟨.statement .imageFiles, .ok s.records⟩ :: ⟨.file (.list .images), .ok s.imageFiles⟩ ::
        rest := by
  obtain ⟨records, first, others, rfl, read, afterRows⟩ := Program.yields_bind.mp h
  obtain rfl := Program.yields_perform.mp read
  cases records with
  | error e => simp at afterRows
  | ok records =>
      obtain ⟨imageFiles, second, others, rfl, listed, afterImages⟩ :=
        Program.yields_bind.mp afterRows
      obtain rfl := Program.yields_perform.mp listed
      cases imageFiles with
      | error e => simp at afterImages
      | ok imageFiles =>
          obtain ⟨thumbnailFiles, third, others, rfl, -, afterThumbnails⟩ :=
            Program.yields_bind.mp afterImages
          cases thumbnailFiles with
          | error e => simp at afterThumbnails
          | ok thumbnailFiles =>
              obtain ⟨temporaryFiles, fourth, others, rfl, -, last⟩ :=
                Program.yields_bind.mp afterThumbnails
              cases temporaryFiles with
              | error e => simp at last
              | ok temporaryFiles =>
                  obtain ⟨rfl, same⟩ := Program.yields_pure.mp last
                  cases same
                  exact ⟨third ++ (fourth ++ []), rfl⟩

theorem inspect_yields {answers : List (Answer Response)} {result : InspectionResult}
    (h : (inspect now).Yields answers (.ok result)) : ∃ (s : ScanState) (rest : _), answers =
      ⟨.statement .imageFiles, .ok s.records⟩ :: ⟨.file (.list .images), .ok s.imageFiles⟩ ::
        rest ∧ result = s.inspection now := by
  obtain ⟨scanned, first, second, rfl, scanning, last⟩ := Program.yields_bind.mp h
  cases scanned with
  | error e => simp at last
  | ok s =>
      obtain ⟨rfl, same⟩ := Program.yields_pure.mp last
      cases same
      obtain ⟨rest, rfl⟩ := scan_yields scanning
      exact ⟨s, rest ++ [], rfl, rfl⟩

end Answers

section Rows

variable {w w' : World (machine P) Result} {τ : List (Event (machine P))} {key : GoString} {size : Int}

/-- The row of the image, as long as it has one, names this key and this size. -/
def RowNames (id key : GoString) (size : Int) (db : Database) : Prop :=
  ∀ v ∈ db.images, v.id = id → v.storageKey = key ∧ v.storedSize = size

theorem RowNames.step {σ σ' : State} {a : Action} {c : Choice} {r : Response a}
    (h : RowNames id key size σ.database) (there : ∃ v ∈ σ.database.images, v.id = id)
    (performed : σ.perform P i a c = some (r, σ'))
    (other : ¬ Rewrites id (⟨i, a, c, r⟩ : Event (machine P))) : RowNames id key size σ'.database := by
  cases a with
  | statement q =>
      obtain ⟨u, known, same⟩ := there
      have change := statement_change performed
      generalize σ'.database = db' at change
      intro v member own
      cases change with
      | created w db' stored =>
          obtain ⟨images, -, fresh, -⟩ := insertImage_some stored
          rw [images] at member
          rcases List.mem_append.mp member with old | new
          · exact h v old own
          · obtain rfl := List.mem_singleton.mp new
            exact absurd (same.trans own.symm) (fresh u known)
      | imported w m db₁ db₂ stored mapped =>
          obtain ⟨images, -, fresh, -⟩ := insertImage_some stored
          rw [(insertAlias_some mapped).1, images] at member
          rcases List.mem_append.mp member with old | new
          · exact h v old own
          · obtain rfl := List.mem_singleton.mp new
            exact absurd (same.trans own.symm) (fresh u known)
      | erased id' row found => exact h v (mem_removeImage.mp member).1 own
      | erasedUnseen id' row found => exact h v (mem_removeImage.mp member).1 own
      | shown id' visibility row db' found replaced =>
          rcases mem_replaced replaced member with rfl | ⟨old, -⟩
          · exact h row (image?_some found).1 own
          · exact h v old own
      | replaced w row db' found replaced =>
          rcases mem_replaced replaced member with rfl | ⟨old, -⟩
          · obtain ⟨-, named⟩ := image?_some found
            exact absurd ⟨i, w, c, rfl, named.symm.trans own⟩ other
          · exact h v old own
      | aliased m db' present mapped =>
          rw [(insertAlias_some mapped).1] at member
          exact h v member own
      | unaliased id' row found => exact h v member own
      | unaliasedUnseen id' row found => exact h v member own
      | none q r db' reading images aliases =>
          rw [images] at member
          exact h v member own
  | _ =>
      rw [(perform_frame performed).database (by simp)]
      exact h

/-- While the image has a row, the row names the same file until a conversion rewrites it. -/
theorem RowNames.run (run : Run (serving P requests False fun w _ => InPlace id w.shared) w τ w')
    (h : RowNames id key size w.shared.database) :
    (∃ e ∈ τ, Rewrites id e) ∨ RowNames id key size w'.shared.database := by
  induction run with
  | refl => exact .inr h
  | @call w₁ τ j a next c r σ _ same performed admitted ih =>
      rcases ih with ⟨e, member, rewrites⟩ | names
      · exact .inl ⟨e, List.mem_append_left _ member, rewrites⟩
      by_cases rewrites : Rewrites id (⟨j, a, c, r⟩ : Event (machine P))
      · exact .inl ⟨_, List.mem_append_right _ (List.mem_singleton_self _), rewrites⟩
      · obtain ⟨v, member, own, -⟩ := admitted
        exact .inr (names.step ⟨v, member, own⟩ performed rewrites)
  | environment _ moved ih =>
      obtain ⟨t, -, rfl⟩ := moved
      exact ih
  | crash _ crashed => exact crashed.elim

end Rows

section Scans

variable {w₁ w₂ : World (machine P) Result} {τ₁ τ₂ : List (Event (machine P))}

/-- Only conversions rewrite an image. -/
theorem rewrites_converts {w : World (machine P) Result} {τ : List (Event (machine P))}
    (registered : Registered σ) (free : σ.locks = .free)
    (run : Run (anything P requests) (start P requests σ) τ w) :
    ∀ e ∈ τ, Rewrites id e → ∃ options, requests e.call = .convertToWebP id options := by
  have kept : (watch P requests).Keeps (anything P requests) fun τ σ ls =>
      Sound P requests σ ls ∧ ∀ e ∈ τ, Rewrites id e →
        ∃ options, requests e.call = .convertToWebP id options := by
    refine keeps serving_serves (fun τ _ _ => ∀ e ∈ τ, Rewrites id e →
      ∃ options, requests e.call = .convertToWebP id options) ?_ ?_ ?_
    · intro τ w ls i a c r σ' sound h permitted performed _ _ e member rewrites
      rcases List.mem_append.mp member with old | new
      · exact h e old rewrites
      · obtain rfl := List.mem_singleton.mp new
        obtain ⟨j, v, c', same, rfl⟩ := rewrites
        cases same
        obtain ⟨-, -, -, -, ⟨old, -, -, -, options, asked⟩, -⟩ := permitted
        rw [sound.made] at asked
        exact ⟨options, asked⟩
    · exact fun _ h _ => h
    · exact fun _ _ _ _ _ _ h _ => h
  obtain ⟨-, -, -, made⟩ := followed kept registered free (by simp) run
  exact made

/-- A scan of an image that is in place counts it as missing only if a conversion has rewritten it
after the rows were read and before the directory was listed. -/
theorem missing_rewritten (registered : Registered σ) (free : σ.locks = .free)
    (before : Run (anything P requests) (start P requests σ) τ₁ w₁)
    (inspects : requests i = .inspect now) (unbegun : w₁.calls i = (requests i).program P)
    (during : Run (serving P requests False fun w _ => InPlace id w.shared) w₁ τ₂ w₂)
    {result : InspectionResult} (replied : w₂.calls i = .done (.inspected (.ok result))) :
    ∃ (s : ScanState) (τ τ' τ'' : List (Event (machine P))) (c c' : Choice),
      τ₂ = τ ++ ⟨i, .statement .imageFiles, c, .ok s.records⟩ ::
        (τ' ++ ⟨i, .file (.list .images), c', .ok s.imageFiles⟩ :: τ'') ∧
      result = s.inspection now ∧
      (id ∈ s.missing.map ImageFileRecord.id →
        ∃ e ∈ τ', Rewrites id e ∧ ∃ options, requests e.call = .convertToWebP id options) := by
  have calm : ¬ (serving P requests False fun w _ => InPlace id w.shared).Crashes := not_false
  have follows := during.follows calm i
  rw [unbegun, inspects, replied] at follows
  obtain ⟨reply, yields, same⟩ := returning_yields follows
  cases same
  obtain ⟨s, rest, answers, rfl⟩ := inspect_yields yields
  obtain ⟨τ, c, later, rfl, others⟩ := answersOf_cons answers
  obtain ⟨τ', c', τ'', rfl, -⟩ := answersOf_cons others
  refine ⟨s, τ, τ', τ'', c, c', rfl, rfl, ?_⟩
  intro counted
  -- the reading of the rows
  obtain ⟨u₁, -, fromRead⟩ := during.split calm
  obtain ⟨v₁, next₁, σ₁, -, -, read, ⟨row, member, own, -⟩, afterRead⟩ := fromRead.cons_inv calm
  obtain ⟨answer, rfl⟩ := statement_answer read (by simp)
  have reads : Reads s v₁.shared.database := (Except.ok.inj answer).symm
  -- the listing of the directory
  obtain ⟨u₂, toList, fromList⟩ := afterRead.split calm
  obtain ⟨v₂, next₂, σ₂, idle, -, list, ⟨row', member', own', fits⟩, -⟩ := fromList.cons_inv calm
  have listed : s.imageFiles = listDirectory v₂.shared.files.images := by
    obtain ⟨files, done, -⟩ := file_state (i := i) list
    exact list_reads done
  have names : RowNames id row.storageKey row.storedSize v₁.shared.database := by
    intro v known same
    obtain rfl := v₁.shared.database.imageIDs.eq known member (same.trans own.symm)
    exact ⟨rfl, rfl⟩
  rcases RowNames.run (toList.trans idle) names with ⟨e, rewritten, rewrites⟩ | names'
  · have whole := before.trans (during.relax rfl rfl False.elim fun _ _ _ => trivial)
    rw [List.append_nil] at rewritten
    refine ⟨e, rewritten, rewrites, rewrites_converts registered free whole e ?_ rewrites⟩
    simp [rewritten]
  · -- the file listed now is the one that the row read then names
    obtain ⟨key, size⟩ := names' row' member' own'
    obtain ⟨v, known, same, absent⟩ := reads.mem_missing.mp counted
    obtain rfl := v₁.shared.database.imageIDs.eq known member (same.trans own.symm)
    obtain ⟨entry, there, named, regular, long⟩ := fileFits_listed fits
    refine absurd (List.any_eq_true.mpr ⟨entry, by rw [listed]; exact there, ?_⟩) absent
    rw [reads.expected known]
    simp [named, regular, long, key, size]

def scanAndConvert : Nat → Request
  | 0 => .inspect 0
  | _ => sampleConversion

/-- The rows are read, the conversion goes on to its end, the directories are listed. -/
def rewriting : List (Nat × Choice) :=
  [(0, .normal), (1, .normal), (1, .normal), (1, .normal), (1, .normal), (1, .normal), (0, .normal),
    (0, .normal), (0, .normal)]

theorem unlisted_missing {s : ScanState} {d : Directory} {r : ImageFileRecord}
    (rows : s.records = [r]) (listed : s.imageFiles = listDirectory d)
    (absent : d.lookup r.storageKey = none) : r.id ∈ (s.inspection now).missingImageIDs := by
  have gone : s.present r.storageKey = false := by
    rw [ScanState.present, listed, List.any_eq_false]
    intro e member
    obtain ⟨entry, there, -⟩ := mem_listDirectory member
    have other : e.key ≠ r.storageKey := by
      intro same
      rw [same, absent] at there
      cases there
    simp [other]
  simp [ScanState.inspection, ScanState.missing, rows, gone, maxReportedMissingIDs]

theorem rewritten_meanwhile : ∃ τ w τ' w' s,
    Run (anything convertingPlatform scanAndConvert) (start convertingPlatform scanAndConvert
      (sampleState Processor.pngSignature (str "image/png") .isPublic (by decide))) τ w ∧
    w.calls 0 = (scanAndConvert 0).program convertingPlatform ∧
    Run (serving convertingPlatform scanAndConvert False fun w _ => InPlace (str "a") w.shared)
      w τ' w' ∧
    w'.calls 0 = .done (.inspected (.ok (ScanState.inspection s 0))) ∧
    str "a" ∈ (s.inspection 0).missingImageIDs := by
  refine ⟨_, _, _, _, _, scheduled convertingPlatform scanAndConvert _ converting rfl, rfl,
    .of_executeWithin (fun σ => decide (InPlace (str "a") σ)) (fun _ _ => of_decide_eq_true)
      rewriting rfl, rfl, ?_⟩
  exact @unlisted_missing 0 _ _ ⟨str "a", str "a", 8⟩ rfl rfl rfl

theorem missing_rewritten_sample : ∃ e : Event (machine convertingPlatform),
    Rewrites (str "a") e ∧
      ∃ options, scanAndConvert e.call = .convertToWebP (str "a") options := by
  obtain ⟨τ, w, τ', w', s, before, unbegun, during, replied, listed⟩ := rewritten_meanwhile
  obtain ⟨s', -, τ₁, -, -, -, -, same, rewritten⟩ := missing_rewritten sample_begins.registered
    sample_begins.free before rfl unbegun during replied
  rw [same] at listed
  obtain ⟨e, -, rewrites, options, asked⟩ := rewritten (List.mem_of_mem_take listed)
  exact ⟨e, rewrites, options, asked⟩

/-- An image that is in place throughout a scan may be reported as missing. -/
theorem false_missing : ¬ ∀ (P : Platform) (requests : Nat → Request) (σ : State) (i : Nat)
    (id : GoString) (now : Time) (τ₁ τ₂ : List (Event (machine P))) (w₁ w₂ : World (machine P) Result)
    (result : InspectionResult), Registered σ → σ.locks = .free →
    Run (anything P requests) (start P requests σ) τ₁ w₁ → requests i = .inspect now →
    w₁.calls i = (requests i).program P →
    Run (serving P requests False fun w _ => InPlace id w.shared) w₁ τ₂ w₂ →
    w₂.calls i = .done (.inspected (.ok result)) → id ∉ result.missingImageIDs := by
  intro claim
  obtain ⟨τ, w, τ', w', s, before, unbegun, during, replied, listed⟩ := rewritten_meanwhile
  exact claim _ _ _ _ _ _ _ _ _ _ _ sample_begins.registered sample_begins.free before rfl unbegun
    during replied listed

end Scans

end ImageSilo.Publication
