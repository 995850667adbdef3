import ImageSilo.Publication.Keys

/-! A temporary file has one owner, and what the owner's ledger says of its content is so. -/
namespace ImageSilo.Publication

open Go Concurrent Storage Tables

/-- If the file is there, it is a regular file of which the facts hold. -/
def Describes (P : Platform) (d : Directory) (key : GoString) (f : Facts) : Prop :=
  ∀ entry, d.lookup key = some entry → ∃ content, entry.node = .regular content ∧ f.holdOf P content

theorem holdOf_nothing (P : Platform) (content : Bytes) : Facts.nothing.holdOf P content :=
  ⟨by simp [Facts.nothing], by simp [Facts.nothing], by simp [Facts.nothing]⟩

structure Stored (P : Platform) (files : Files) (ls : Nat → Ledger) : Prop where
  named : ∀ i p, (ls i).temps p ≠ none → p ∈ files.handedOut
  owner : ∀ i j p, (ls i).temps p ≠ none → (ls j).temps p ≠ none → i = j
  temps : ∀ i p f, (ls i).temps p = some f → Describes P files.temporary p f
  placed : ∀ i k f, (ls i).placed = some (k, f) → Describes P files.images k f

variable {P : Platform} {σ σ' : State} {ls : Nat → Ledger} {i : Nat} {a : Action} {c : Choice}
  {r : Response a} {l : Ledger} {files files' : Files}

theorem Describes.shrink {d d' : Directory} {key : GoString} {f : Facts}
    (h : Describes P d key f)
    (kept : ∀ entry, d'.lookup key = some entry → d.lookup key = some entry) :
    Describes P d' key f :=
  fun entry there => h entry (kept entry there)

theorem Stored.after (h : Stored P files ls) (grown : files.handedOut ⊆ files'.handedOut)
    (owned : ∀ p, l.temps p ≠ none → (ls i).temps p ≠ none ∨
      p ∉ files.handedOut ∧ p ∈ files'.handedOut)
    (mine : ∀ p f, l.temps p = some f → Describes P files'.temporary p f)
    (others : ∀ j p, j ≠ i → (ls j).temps p ≠ none → ∀ entry,
      files'.temporary.lookup p = some entry → files.temporary.lookup p = some entry)
    (placed : ∀ k f, l.placed = some (k, f) → Describes P files'.images k f)
    (kept : ∀ j k f, j ≠ i → (ls j).placed = some (k, f) → ∀ entry,
      files'.images.lookup k = some entry → files.images.lookup k = some entry) :
    Stored P files' (Function.update ls i l) := by
  constructor
  · intro j p
    by_cases self : j = i
    · rw [self, Function.update_self]
      intro own
      rcases owned p own with old | new
      · exact grown (h.named i p old)
      · exact new.2
    · rw [Function.update_of_ne self]
      exact fun own => grown (h.named j p own)
  · intro j j' p first second
    by_cases self : j = i
    · by_cases self' : j' = i
      · exact self.trans self'.symm
      · rw [self, Function.update_self] at first
        rw [Function.update_of_ne self'] at second
        rcases owned p first with old | new
        · exact self.trans (h.owner i j' p old second)
        · exact absurd (h.named j' p second) new.1
    · rw [Function.update_of_ne self] at first
      by_cases self' : j' = i
      · rw [self', Function.update_self] at second
        rcases owned p second with old | new
        · exact (h.owner j i p first old).trans self'.symm
        · exact absurd (h.named j p first) new.1
      · rw [Function.update_of_ne self'] at second
        exact h.owner j j' p first second
  · intro j p f
    by_cases self : j = i
    · rw [self, Function.update_self]
      exact mine p f
    · rw [Function.update_of_ne self]
      intro known
      exact (h.temps j p f known).shrink (others j p self (by simp [known]))
  · intro j k f
    by_cases self : j = i
    · rw [self, Function.update_self]
      exact placed k f
    · rw [Function.update_of_ne self]
      intro known
      exact (h.placed j k f known).shrink (kept j k f self known)

/-- Nothing happens to the files, and no ledger learns of one. -/
theorem Stored.quiet (h : Stored P files ls) (temps : l.temps = (ls i).temps)
    (placed : ∀ k f, l.placed = some (k, f) → (ls i).placed = some (k, f)) :
    Stored P files (Function.update ls i l) := by
  refine h.after (Finset.Subset.refl _) ?_ ?_ ?_ ?_ ?_
  · rw [temps]
    exact fun p own => .inl own
  · rw [temps]
    exact h.temps i
  · exact fun _ _ _ _ _ => id
  · exact fun k f known => h.placed i k f (placed k f known)
  · exact fun _ _ _ _ _ _ => id

theorem statement_placed (l : Ledger) {q : Statement} (r : Except DatabaseError q.Value) :
    ∀ k f, (l.recordStatement P q r).placed = some (k, f) → l.placed = some (k, f) := by
  intro k f placed
  by_cases reading : Reading q r
  · obtain ⟨_, _, _, _, _, _, eq⟩ := reading_frame (P := P) l reading
    rwa [eq] at placed
  · unfold Reading at reading
    split at reading
    case h_8 => exact absurd trivial reading
    all_goals first
      | exact placed
      | cases placed

/-- A call works on a temporary file of its own. -/
theorem Stored.know (h : Stored P files ls) {path : GoString} {f : Facts}
    (own : (ls i).temps path ≠ none) (temps : l.temps = ((ls i).know path f).temps)
    (placed : ∀ k g, l.placed = some (k, g) → Describes P files'.images k g)
    (named : files'.handedOut = files.handedOut)
    (elsewhere : ∀ p, p ≠ path → files'.temporary.lookup p = files.temporary.lookup p)
    (here : Describes P files'.temporary path f)
    (kept : ∀ j k f, j ≠ i → (ls j).placed = some (k, f) → ∀ entry,
      files'.images.lookup k = some entry → files.images.lookup k = some entry) :
    Stored P files' (Function.update ls i l) := by
  have mine : ∀ p, p ≠ path → l.temps p = (ls i).temps p := by
    intro p ne
    rw [temps]
    exact Function.update_of_ne ne _ _
  refine h.after (by rw [named]) ?_ ?_ ?_ placed kept
  · intro p own'
    by_cases same : p = path
    · rw [same]
      exact .inl own
    · rw [mine p same] at own'
      exact .inl own'
  · intro p g known
    by_cases same : p = path
    · subst same
      rw [temps, know_self] at known
      cases known
      exact here
    · rw [mine p same] at known
      exact (h.temps i p g known).shrink fun entry there => by rwa [elsewhere p same] at there
  · intro j p other own' entry there
    have ne : p ≠ path := by
      rintro rfl
      exact other (h.owner j i p own' own)
    rwa [elsewhere p ne] at there

theorem describes_put {d : Directory} {key : GoString} {content : Bytes} {now : Time} {f : Facts}
    (holds : f.holdOf P content) : Describes P (d.insert key ⟨.regular content, now⟩) key f := by
  intro entry there
  rw [Finmap.lookup_insert] at there
  cases there
  exact ⟨content, rfl, holds⟩

theorem describes_erase {d : Directory} {key : GoString} {f : Facts} :
    Describes P (d.erase key) key f := by
  intro entry there
  rw [Finmap.lookup_erase] at there
  cases there

theorem temporary_put_ne {f : Files} {path p : GoString} {entry : Entry} (ne : p ≠ path) :
    (f.put .temporary path entry).temporary.lookup p = f.temporary.lookup p := by
  unfold Files.temporary
  rw [put_same, lookup_insert_ite, if_neg ne]

theorem temporary_drop_ne {f : Files} {path p : GoString} (ne : p ≠ path) :
    (f.drop .temporary path).temporary.lookup p = f.temporary.lookup p := by
  unfold Files.temporary
  rw [drop_same, lookup_erase_ite, if_neg ne]

/-- A processor leaves some content in its output file, or no file; nothing is known of it. -/
theorem Stored.output (h : Stored P files ls) {path : GoString} {left : Option Bytes} {now : Time}
    (own : (ls i).temps path ≠ none) :
    Stored P (left.elim (files.drop .temporary path) fun content =>
        files.put .temporary path ⟨.regular content, now⟩)
      (Function.update ls i ((ls i).know path .nothing)) := by
  cases left with
  | none =>
      refine h.know own rfl ?_ rfl (fun p ne => temporary_drop_ne ne) ?_ ?_
      · exact fun k f placed => h.placed i k f placed
      · unfold Files.temporary
        rw [Option.elim_none, drop_same]
        exact describes_erase
      · exact fun _ _ _ _ _ _ there => there
  | some content =>
      refine h.know own rfl ?_ rfl (fun p ne => temporary_put_ne ne) ?_ ?_
      · exact fun k f placed => h.placed i k f placed
      · unfold Files.temporary
        rw [Option.elim_some, put_same]
        exact describes_put (holdOf_nothing P content)
      · exact fun _ _ _ _ _ _ there => there

/-- The same files, and more or less known of one of the call's own. -/
theorem Stored.learn (h : Stored P files ls) {path : GoString} {f : Facts}
    (own : (ls i).temps path ≠ none) (here : Describes P files.temporary path f) :
    Stored P files (Function.update ls i ((ls i).know path f)) :=
  h.know own rfl (fun k f placed => h.placed i k f placed) rfl (fun _ _ => rfl) here
    fun _ _ _ _ _ _ there => there

theorem Stored.forget (h : Stored P files ls) {path : GoString} (own : (ls i).temps path ≠ none) :
    Stored P files (Function.update ls i ((ls i).know path .nothing)) := by
  obtain ⟨f, known⟩ := Option.ne_none_iff_exists'.mp own
  refine h.learn own ?_
  intro entry there
  obtain ⟨content, regular, -⟩ := h.temps i path f known entry there
  exact ⟨content, regular, holdOf_nothing P content⟩

theorem write_absent {path : GoString} {content : Bytes} {now : Time}
    (performed : files.perform P now (.write path content) c = some (.ok (), files)) :
    Describes P files.temporary path ⟨some content.length, some (P.sha256 content), none⟩ := by
  have holds : Facts.holdOf P ⟨some content.length, some (P.sha256 content), none⟩ content :=
    ⟨by simp, by simp, by simp⟩
  unfold Files.perform at performed
  cases c with
  | normal =>
      dsimp only at performed
      split at performed
      · rename_i absent
        intro entry there
        rw [absent] at there
        cases there
      · -- the write has left the directory as it was, so it has written what was there
        have same : files.put .temporary path ⟨.regular content, now⟩ = files := by
          simpa using performed
        rw [← same]
        unfold Files.temporary
        rw [put_same]
        exact describes_put holds
  | partialWrite bytes =>
      dsimp only at performed
      split at performed <;> cases performed
  | _ => cases performed

theorem inspect_reads {path : GoString} {limits : Processor.Limits} {metadata : Processor.Metadata}
    {now : Time}
    (performed : files.perform P now (.inspect (.temporary path) limits) c =
      some (.ok metadata, files')) :
    ∃ content t, files.temporary.lookup path = some ⟨.regular content, t⟩ ∧
      Processor.contentMIME content = some metadata.mimeType := by
  unfold Files.perform at performed
  cases c with
  | normal =>
      dsimp only at performed
      split at performed
      · cases performed
      · cases performed
      · rename_i content t there
        simp only [Option.some.injEq, Prod.mk.injEq] at performed
        exact ⟨content, t, there, Processor.inspectFile_mime P performed.1⟩
  | _ => cases performed

theorem hash_reads {path : GoString} {stored : Int × Digest} {now : Time}
    (performed : files.perform P now (.hash path) c = some (.ok stored, files')) :
    ∃ content t, files.temporary.lookup path = some ⟨.regular content, t⟩ ∧
      stored = (↑content.length, P.sha256 content) := by
  unfold Files.perform at performed
  cases c with
  | normal =>
      dsimp only at performed
      split at performed
      · rename_i content t there
        cases performed
        exact ⟨content, t, there, rfl⟩
      · cases performed
  | _ => cases performed

theorem openImage_reads {key : GoString} {bytes : Bytes} {now : Time}
    (performed : files.perform P now (.openImage key) c = some (.ok bytes, files')) :
    ∃ t, files.images.lookup key = some ⟨.regular bytes, t⟩ := by
  unfold Files.perform at performed
  cases c with
  | normal =>
      simp only [Option.some.injEq, Prod.mk.injEq] at performed
      obtain ⟨read, -⟩ := performed
      unfold openRegular at read
      split at read
      · cases read
      · split at read
        · cases read
        · rename_i content t there
          cases read
          exact ⟨t, there⟩
        · cases read
  | _ => cases performed

/-- An action that leaves the directories alone may still add to what is known of a file. -/
theorem Stored.read (h : Stored P σ.files ls) {b : FileAction} {r : b.Response}
    (permitted : (ls i).allowsFile b) (kept : Kept b r)
    (performed : σ.files.perform P σ.clock b c = some (r, σ.files)) :
    Stored P σ.files (Function.update ls i ((ls i).recordFile P b r)) := by
  cases b with
  | createTemporary =>
      cases r with
      | error e => exact h.quiet rfl fun _ _ placed => placed
      | ok path => exact absurd kept id
  | write path content =>
      cases r with
      | error e => exact h.forget permitted
      | ok u => exact h.learn permitted (write_absent performed)
  | transform input path metadata options plan => exact h.forget permitted
  | thumbnail input path => exact h.forget permitted
  | inspect ref limits =>
      cases ref with
      | stored key => exact h.quiet rfl fun _ _ placed => placed
      | temporary path =>
          cases r with
          | error e => exact h.quiet rfl fun _ _ placed => placed
          | ok metadata =>
              cases known : (ls i).temps path with
              | none =>
                  have same : (ls i).recordFile P (.inspect (.temporary path) limits) (.ok metadata) =
                      ls i := by simp only [Ledger.recordFile, known]
                  rw [same]
                  exact h.quiet rfl fun _ _ placed => placed
              | some f =>
                  have same : (ls i).recordFile P (.inspect (.temporary path) limits) (.ok metadata) =
                      (ls i).know path { f with mime := some metadata.mimeType } := by
                    simp only [Ledger.recordFile, known]
                  rw [same]
                  refine h.learn (by simp [known]) ?_
                  obtain ⟨content, t, there, mime⟩ := inspect_reads performed
                  obtain ⟨content', regular, size, digest, -⟩ := h.temps i path f known _ there
                  cases regular
                  intro entry there'
                  rw [there] at there'
                  cases there'
                  refine ⟨content, rfl, size, digest, ?_⟩
                  rintro m ⟨⟩
                  exact mime
  | hash path =>
      cases r with
      | error e => exact h.quiet rfl fun _ _ placed => placed
      | ok stored =>
          cases known : (ls i).temps path with
          | none =>
              have same : (ls i).recordFile P (.hash path) (.ok stored) = ls i := by
                simp only [Ledger.recordFile, known]
              rw [same]
              exact h.quiet rfl fun _ _ placed => placed
          | some f =>
              have same : (ls i).recordFile P (.hash path) (.ok stored) =
                  (ls i).know path { f with size := some stored.1, digest := some stored.2 } := by
                simp only [Ledger.recordFile, known]
              rw [same]
              refine h.learn (by simp [known]) ?_
              obtain ⟨content, t, there, eq⟩ := hash_reads performed
              obtain ⟨content', regular, -, -, mime⟩ := h.temps i path f known _ there
              cases regular
              subst eq
              intro entry there'
              rw [there] at there'
              cases there'
              refine ⟨content, rfl, ?_, ?_, mime⟩
              · rintro s ⟨⟩
                rfl
              · rintro d ⟨⟩
                rfl
  | rename path folder key =>
      cases r with
      | error e => cases folder <;> exact h.quiet rfl fun _ _ placed => placed
      | ok u => exact absurd kept id
  | remove folder key =>
      refine h.quiet ?_ (file_placed (ls i) id)
      cases folder with
      | images =>
          unfold Ledger.recordFile
          dsimp only
          split <;> rfl
      | thumbnails =>
          unfold Ledger.recordFile
          dsimp only
          split <;> rfl
      | temporary => rfl
  | openImage key =>
      refine h.quiet ?_ (file_placed (ls i) id)
      unfold Ledger.recordFile
      dsimp only
      split <;> rfl
  | list folder =>
      refine h.quiet ?_ (file_placed (ls i) id)
      cases folder with
      | images => cases r <;> rfl
      | thumbnails => rfl
      | temporary => rfl
  | _ => exact h.quiet rfl fun _ _ placed => placed

theorem Stored.file (h : Stored P σ.files ls) (keyed : Keyed σ ls) {b : FileAction}
    {r : b.Response} (permitted : (ls i).allowsFile b)
    (performed : σ.files.perform P σ.clock b c = some (r, files')) :
    Stored P files' (Function.update ls i ((ls i).recordFile P b r)) := by
  have effect := file_effect performed
  cases effect with
  | created path unused absent =>
      have new : (ls i).temps path = none := by
        by_contra own
        exact unused (h.named i path own)
      refine h.after (Finset.subset_insert _ _) ?_ ?_ ?_ ?_ ?_
      · intro p own
        by_cases same : p = path
        · subst same
          exact .inr ⟨unused, Finset.mem_insert_self _ _⟩
        · have : ((ls i).know path .nothing).temps p ≠ none := own
          simp only [Ledger.know, Function.update_of_ne same] at this
          exact .inl this
      · intro p f known
        by_cases same : p = path
        · subst same
          have : f = .nothing := by simpa [Ledger.recordFile] using known.symm
          subst this
          change Describes P ((σ.files.put .temporary p _).directory .temporary) p _
          rw [put_same]
          exact describes_put (holdOf_nothing P [])
        · have old : (ls i).temps p = some f := by
            simpa [Ledger.recordFile, Ledger.know, Function.update_of_ne same] using known
          refine (h.temps i p f old).shrink ?_
          intro entry there
          exact (temporary_put_ne same).symm.trans there
      · intro j p other own entry there
        have ne : p ≠ path := by
          rintro rfl
          exact unused (h.named j p own)
        exact (temporary_put_ne ne).symm.trans there
      · exact fun k f placed => h.placed i k f placed
      · exact fun _ _ _ _ _ _ there => there
  | wrote path content left r full =>
      have images : ∀ k f, (ls i).placed = some (k, f) →
          Describes P (σ.files.put .temporary path ⟨.regular left, σ.clock⟩).images k f := by
        rw [images_put_temporary]
        exact h.placed i
      have others : ∀ j k f, j ≠ i → (ls j).placed = some (k, f) → ∀ entry,
          (σ.files.put .temporary path ⟨.regular left, σ.clock⟩).images.lookup k = some entry →
            σ.files.images.lookup k = some entry := by
        rw [images_put_temporary]
        exact fun _ _ _ _ _ _ there => there
      cases r with
      | error e =>
          refine h.know permitted rfl images rfl (fun p ne => temporary_put_ne ne) ?_ others
          unfold Files.temporary
          rw [put_same]
          exact describes_put (holdOf_nothing P left)
      | ok u =>
          refine h.know permitted rfl images rfl (fun p ne => temporary_put_ne ne) ?_ others
          unfold Files.temporary
          rw [put_same, full rfl]
          exact describes_put ⟨by simp, by simp, by simp⟩
  | transformed input path metadata options plan r left => exact h.output permitted
  | thumbnailed input path r left => exact h.output permitted
  | renamed path folder key entry there =>
      have moved : ∀ p, p ≠ path → folder ≠ .temporary →
          (renamed σ.files path folder key entry).temporary.lookup p =
            σ.files.temporary.lookup p := by
        intro p ne other
        unfold Files.temporary
        rw [renamed_directory, put_other (Ne.symm other), drop_same, lookup_erase_ite, if_neg ne]
      have gone : folder ≠ .temporary →
          Describes P (renamed σ.files path folder key entry).temporary path .nothing := by
        intro other
        unfold Files.temporary
        rw [renamed_directory, put_other (Ne.symm other), drop_same]
        exact describes_erase
      cases folder with
      | images =>
          obtain ⟨own, held, empty, -⟩ := permitted
          have placeable := keyed.fresh held
          refine h.know own rfl ?_ (renamed_handedOut _ _ _ _ _) (fun p ne => moved p ne (by simp))
            (gone (by simp)) ?_
          · intro k g placed
            obtain ⟨f, known, eq⟩ := Option.map_eq_some_iff.mp placed
            cases eq
            rw [images_renamed, if_pos rfl]
            intro entry' there'
            rw [Finmap.lookup_insert] at there'
            cases there'
            exact h.temps i path g known entry there
          · intro j k g other placed entry' there'
            rw [images_renamed, if_pos rfl, lookup_insert_ite] at there'
            split at there'
            · rename_i same
              rw [same] at placed
              exact absurd placed (placeable.apart j g other)
            · exact there'
      | thumbnails =>
          obtain ⟨own, -⟩ := permitted
          refine h.know own rfl ?_ (renamed_handedOut _ _ _ _ _) (fun p ne => moved p ne (by simp))
            (gone (by simp)) ?_
          · rw [images_renamed, if_neg (by simp)]
            exact fun k f placed => h.placed i k f placed
          · rw [images_renamed, if_neg (by simp)]
            exact fun _ _ _ _ _ _ there => there
      | temporary => exact absurd permitted id
  | removed folder key =>
      have shrink : ∀ p entry, (σ.files.drop folder key).temporary.lookup p = some entry →
          σ.files.temporary.lookup p = some entry := by
        intro p entry there
        by_cases same : folder = .temporary
        · subst same
          unfold Files.temporary at there
          rw [drop_same, lookup_erase_ite] at there
          split at there
          · cases there
          · exact there
        · unfold Files.temporary at there
          rwa [drop_other (Ne.symm same)] at there
      have temps : ((ls i).recordFile P (.remove folder key) (.ok ())).temps = (ls i).temps := by
        cases folder with
        | images =>
            unfold Ledger.recordFile
            dsimp only
            split <;> rfl
        | thumbnails =>
            unfold Ledger.recordFile
            dsimp only
            split <;> rfl
        | temporary => rfl
      refine h.after (Finset.Subset.refl _) ?_ ?_ ?_ ?_ ?_
      · rw [temps]
        exact fun p own => .inl own
      · rw [temps]
        exact fun p f known => (h.temps i p f known).shrink (shrink p)
      · exact fun j p _ _ => shrink p
      · intro k f placed
        have before := file_placed (P := P) (ls i) id k f placed
        exact (h.placed i k f before).shrink fun _ => images_drop
      · exact fun _ _ _ _ _ _ => images_drop
  | none b r kept => exact h.read permitted kept performed

theorem Stored.step (h : Stored P σ.files ls) (keyed : Keyed σ ls)
    (permitted : (ls i).permits P a) (performed : σ.perform P i a c = some (r, σ')) :
    Stored P σ'.files (Function.update ls i ((ls i).record P a r)) := by
  have frame := perform_frame performed
  cases a with
  | file b =>
      obtain ⟨files, done, rfl⟩ := file_state performed
      exact h.file keyed permitted.2 done
  | statement q =>
      rw [frame.files (by simp)]
      refine h.quiet ?_ (statement_placed (ls i) r)
      obtain ⟨_, _, _, _, _, _, _, _, _, _, _, _, _, _, eq⟩ :=
        recordStatement_frame (P := P) (ls i) q r
      rw [Ledger.record, eq]
  | sync s =>
      rw [frame.files (by simp)]
      obtain ⟨_, _, _, _, _, eq⟩ := recordSync_frame (ls i) s
      rw [Ledger.record, eq]
      exact h.quiet rfl fun _ _ placed => placed
  | index s =>
      rw [frame.files (by simp)]
      obtain ⟨_, _, _, _, eq⟩ := recordIndex_frame (ls i) s
      rw [Ledger.record, eq]
      exact h.quiet rfl fun _ _ placed => placed
  | newUUID =>
      rw [frame.files (by simp)]
      cases r with
      | error e => exact h.quiet rfl fun _ _ placed => placed
      | ok id => exact h.quiet rfl fun _ _ placed => placed
  | _ =>
      rw [frame.files (by simp)]
      exact h.quiet rfl fun _ _ placed => placed

end ImageSilo.Publication
