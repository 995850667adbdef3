import ImageSilo.Publication.Rules

/-! Each program of the image services is walked once, from the ledger of an idle call to a settled one.
-/
namespace ImageSilo.Publication

open Go Concurrent Storage

variable {P : Platform} {α : Type} {l : Ledger}

/-- Nothing is held and nothing is owed. -/
structure Settled (l : Ledger) : Prop where
  image : l.image = none
  path : l.path = none
  hold : l.hold = .free
  owes : l.owes = []
  progress : l.progress = .idle

/-- Temporary files that were the call's own still are. -/
def Owned (l l' : Ledger) : Prop := ∀ p, l.temps p ≠ none → l'.temps p ≠ none

/-- Only new temporary files have been added. -/
def Extends (l l' : Ledger) : Prop :=
  ∃ temps, l' = { l with temps := temps } ∧ ∀ p f, l.temps p = some f → temps p = some f

theorem Extends.refl (l : Ledger) : Extends l l := ⟨l.temps, rfl, fun _ _ h => h⟩

theorem Extends.know {l l' : Ledger} (h : Extends l l') {path : GoString} (f : Facts)
    (other : l.temps path = none) : Extends l (l'.know path f) := by
  obtain ⟨temps, rfl, kept⟩ := h
  refine ⟨Function.update temps path (some f), rfl, ?_⟩
  intro p g known
  have : p ≠ path := by
    rintro rfl
    rw [other] at known
    cases known
  rw [Function.update_of_ne this]
  exact kept p g known

theorem Extends.trans {l l' l'' : Ledger} (h : Extends l l') (h' : Extends l' l'') :
    Extends l l'' := by
  obtain ⟨temps, rfl, kept⟩ := h
  obtain ⟨temps', rfl, kept'⟩ := h'
  exact ⟨temps', rfl, fun p f known => kept' p f (kept p f known)⟩

theorem Extends.owes {l l' : Ledger} (h : Extends l l') : l'.owes = l.owes := by
  obtain ⟨temps, rfl, -⟩ := h
  rfl

theorem Extends.temps {l l' : Ledger} (h : Extends l l') {p : GoString} {f : Facts}
    (known : l.temps p = some f) : l'.temps p = some f := by
  obtain ⟨temps, rfl, kept⟩ := h
  exact kept p f known

theorem Extends.settled {l l' : Ledger} (h : Extends l l') (settled : Settled l) : Settled l' := by
  obtain ⟨temps, rfl, -⟩ := h
  exact ⟨settled.image, settled.path, settled.hold, settled.owes, settled.progress⟩

@[simp] theorem know_self (l : Ledger) (path : GoString) (f : Facts) :
    (l.know path f).temps path = some f := by
  simp [Ledger.know]

theorem know_owned (l : Ledger) (path : GoString) (f : Facts) : Owned l (l.know path f) := by
  intro p owned
  by_cases same : p = path
  · subst same
    simp
  · simpa [Ledger.know, Function.update_of_ne same] using owned

section Staging

theorem stageReader_walks {defaultMaxBytes maxBytes : Int} {reader : Reader}
    (idle : l.owes = []) :
    Walks P (stageReader P defaultMaxBytes reader maxBytes) l fun r l' =>
      Extends l l' ∧ ∀ staged, r = .ok staged →
        l.temps staged.path = none ∧
          l'.temps staged.path = some ⟨some staged.size, some staged.digest, none⟩ := by
  unfold stageReader
  generalize (if maxBytes ≤ 0 then defaultMaxBytes else maxBytes) = limit
  refine .seq (createTemporary_walks idle ?_ ?_)
  · intro e
    exact .done ⟨.refl l, by simp⟩
  intro path fresh
  have mine : (l.know path .nothing).temps path ≠ none := by simp
  -- whatever was copied, the file stays the call's own
  have lost : ∀ (f : Facts) (e : Error),
      Walks P (discard path e) ((l.know path .nothing).know path f)
        fun (r : Except Error Staged) l' => Extends l l' ∧ ∀ staged, r = .ok staged →
          l.temps staged.path = none ∧
            l'.temps staged.path = some ⟨some staged.size, some staged.digest, none⟩ := by
    intro f e
    exact discard_walks idle (by simp)
      ⟨((Extends.refl l).know .nothing fresh).know f fresh, by simp⟩
  refine .seq (write_walks idle mine ?_ ?_)
  · intro e
    refine .seq (closeTemporary_walks idle ?_)
    intro closed
    exact lost _ e
  · refine .seq (closeTemporary_walks idle ?_)
    intro closed
    match closed with
    | .error e => exact lost _ e
    | .ok _ =>
        dsimp only
        split
        · exact lost _ _
        split
        · exact lost _ _
        split
        · exact lost _ _
        refine .done ⟨((Extends.refl l).know .nothing fresh).know _ fresh, ?_⟩
        rintro staged ⟨⟩
        exact ⟨fresh, by simp⟩

theorem prepareThumbnail_walks {input : GoString} (idle : l.owes = []) :
    Walks P (prepareThumbnail input) l fun r l' =>
      Extends l l' ∧ ∀ path, r = .ok (some path) → l.temps path = none ∧ l'.temps path ≠ none := by
  refine .seq (createTemporary_walks idle ?_ ?_)
  · intro e
    exact .done ⟨.refl l, by simp⟩
  intro path fresh
  have mine : (l.know path .nothing).temps path ≠ none := by simp
  have grown : Extends l (l.know path .nothing) := (Extends.refl l).know .nothing fresh
  refine .seq (closeTemporary_walks idle ?_)
  intro closed
  match closed with
  | .error e => exact discard_walks idle mine ⟨grown, by simp⟩
  | .ok _ =>
      refine .seq (thumbnail_walks idle mine ?_)
      intro made
      have grown' : Extends l ((l.know path .nothing).know path .nothing) :=
        grown.know .nothing fresh
      match made with
      | .ok _ =>
          refine .done ⟨grown', ?_⟩
          rintro p ⟨⟩
          exact ⟨fresh, by simp⟩
      | .error e =>
          refine .seq (removeTemporary_walks idle (by simp) ?_)
          split
          · exact .done ⟨grown', by simp⟩
          · exact .done ⟨grown', by simp⟩

/-- The file to be stored is the source, or a file of the call's own whose format is known. -/
theorem transformImage_walks {sourcePath : GoString} {sourceSize : Int} {options : UploadOptions}
    {sourceMetadata : Processor.Metadata} (idle : l.owes = []) :
    Walks P (transformImage sourcePath sourceSize options sourceMetadata) l fun r l' =>
      Extends l l' ∧ ∀ t, r = .ok t →
        (t.selectedPath = sourcePath ∧ t.metadata = sourceMetadata) ∨
          (l.temps t.selectedPath = none ∧
            l'.temps t.selectedPath = some ⟨none, none, some t.metadata.mimeType⟩) := by
  unfold transformImage
  dsimp only
  split
  · refine .done ⟨.refl l, ?_⟩
    rintro t ⟨⟩
    exact .inl ⟨rfl, rfl⟩
  refine .seq (createTemporary_walks idle ?_ ?_)
  · intro e
    exact .done ⟨.refl l, by simp⟩
  intro path fresh
  have grown : ∀ f, Extends l ((l.know path .nothing).know path f) :=
    fun f => ((Extends.refl l).know .nothing fresh).know f fresh
  refine .seq (closeTemporary_walks idle ?_)
  intro closed
  match closed with
  | .error e => exact discard_walks idle (by simp) ⟨(Extends.refl l).know .nothing fresh, by simp⟩
  | .ok _ =>
      refine .seq (transform_walks idle (by simp) ?_)
      intro transformed
      match transformed with
      | .error e => exact discard_walks idle (by simp) ⟨grown _, by simp⟩
      | .ok _ =>
          refine .seq (statTemporary_walks idle ?_)
          intro size
          match size with
          | .error e => exact discard_walks idle (by simp) ⟨grown _, by simp⟩
          | .ok size =>
              dsimp only
              split
              · refine .seq (removeTemporary_walks idle (by simp) ?_)
                refine .done ⟨grown _, ?_⟩
                rintro t ⟨⟩
                exact .inl ⟨rfl, rfl⟩
              · refine .seq (inspectTemporary_walks idle (know_self _ _ _) ?_ ?_)
                · intro e
                  exact discard_walks idle (by simp) ⟨grown _, by simp⟩
                · intro metadata
                  dsimp only
                  split
                  · exact discard_walks idle (by simp) ⟨(grown _).know _ fresh, by simp⟩
                  · refine .done ⟨(grown _).know _ fresh, ?_⟩
                    rintro t ⟨⟩
                    exact .inr ⟨fresh, by simp [Facts.nothing]⟩

/-- What the commit of an upload starts from: the chosen file and the thumbnail are the call's own. -/
structure Ready (l : Ledger) (source : GoString) (f : Facts) (p : Prepared) : Prop where
  selected : ∃ g, l.temps p.selectedPath = some g ∧ g.mime = some p.metadata.mimeType ∧
    (p.selectedPath = source → g.size = f.size ∧ g.digest = f.digest)
  thumbnail : ∀ path ∈ p.thumbnailPath, l.temps path ≠ none ∧ path ≠ p.selectedPath

/-- Only the knowledge of temporary files has changed, and none is given up. -/
def Grows (l l' : Ledger) : Prop := ∃ temps, l' = { l with temps := temps } ∧ Owned l l'

theorem Grows.refl (l : Ledger) : Grows l l := ⟨l.temps, rfl, fun _ owned => owned⟩

theorem Grows.trans {l l' l'' : Ledger} (h : Grows l l') (h' : Grows l' l'') : Grows l l'' := by
  obtain ⟨temps, rfl, kept⟩ := h
  obtain ⟨temps', rfl, kept'⟩ := h'
  exact ⟨temps', rfl, fun p owned => kept' p (kept p owned)⟩

theorem Grows.know (l : Ledger) (path : GoString) (f : Facts) : Grows l (l.know path f) :=
  ⟨_, rfl, know_owned l path f⟩

theorem Grows.owes {l l' : Ledger} (h : Grows l l') : l'.owes = l.owes := by
  obtain ⟨temps, rfl, -⟩ := h
  rfl

theorem Grows.owned {l l' : Ledger} (h : Grows l l') : Owned l l' := by
  obtain ⟨-, -, owned⟩ := h
  exact owned

theorem Extends.grows {l l' : Ledger} (h : Extends l l') : Grows l l' := by
  obtain ⟨temps, rfl, kept⟩ := h
  refine ⟨temps, rfl, ?_⟩
  intro p owned
  obtain ⟨f, known⟩ := Option.ne_none_iff_exists'.mp owned
  have := kept p f known
  change temps p ≠ none
  simp [this]

theorem prepareImage_walks {sourcePath : GoString} {sourceSize : Int} {options : UploadOptions}
    {f : Facts} (idle : l.owes = []) (owned : l.temps sourcePath = some f) :
    Walks P (prepareImage sourcePath sourceSize options) l fun r l' =>
      Grows l l' ∧ ∀ p, r = .ok p → Ready l' sourcePath f p := by
  refine .seq (inspectTemporary_walks idle owned ?_ ?_)
  · intro e
    exact .done ⟨.refl l, by simp⟩
  intro metadata
  have seen := Grows.know l sourcePath { f with mime := some metadata.mimeType }
  refine .bind (transformImage_walks idle) ?_
  rintro transformed l₁ ⟨grown₁, chosen⟩
  match transformed with
  | .error e => exact .done ⟨seen.trans grown₁.grows, by simp⟩
  | .ok t =>
      -- the chosen file, and what is known of it
      obtain ⟨g, known, mime, same⟩ : ∃ g, l₁.temps t.selectedPath = some g ∧
          g.mime = some t.metadata.mimeType ∧
          (t.selectedPath = sourcePath → g.size = f.size ∧ g.digest = f.digest) := by
        rcases chosen t rfl with ⟨path, described⟩ | ⟨fresh, known⟩
        · refine ⟨{ f with mime := some metadata.mimeType }, ?_, ?_, fun _ => ⟨rfl, rfl⟩⟩
          · rw [path]
            exact grown₁.temps (know_self _ _ _)
          · rw [described]
        · refine ⟨_, known, rfl, ?_⟩
          intro path
          rw [path, know_self] at fresh
          cases fresh
      refine .bind (prepareThumbnail_walks (grown₁.owes.trans idle)) ?_
      rintro thumbnail l₂ ⟨grown₂, made⟩
      have idle₂ : l₂.owes = [] := grown₂.owes.trans (grown₁.owes.trans idle)
      have known₂ := grown₂.temps known
      have grown := seen.trans (grown₁.grows.trans grown₂.grows)
      match thumbnail with
      | .error e =>
          exact .seq (removeUnless_walks idle₂ (by simp [known₂]) (.done ⟨grown, by simp⟩))
      | .ok thumbnailPath =>
          refine .done ⟨grown, ?_⟩
          rintro p ⟨⟩
          refine ⟨⟨g, known₂, mime, same⟩, ?_⟩
          rintro path ⟨⟩
          obtain ⟨fresh, owned'⟩ := made path rfl
          refine ⟨owned', ?_⟩
          intro (eq : path = t.selectedPath)
          rw [eq, known] at fresh
          cases fresh

end Staging

section Commits

/-- How an operation that publishes leaves its caller: nothing held or owed, nothing placed without
a row, and the rows it has inserted written down. -/
structure Outcome (l l' : Ledger) (inserted : Option Image) (aliased : Option Alias) : Prop where
  settled : Settled l'
  placed : l'.placed = none
  thumb : l'.thumb = none
  inserted : l'.inserted = inserted
  aliased : l'.aliased = aliased
  owned : Owned l l'

/-- A caller that has published nothing yet. -/
abbrev Clean (l : Ledger) : Prop := Outcome l l none none

theorem Outcome.clean {l l' : Ledger} (h : Outcome l l' none none) : Clean l' :=
  ⟨h.settled, h.placed, h.thumb, h.inserted, h.aliased, fun _ owned => owned⟩

theorem Outcome.after {l l' l'' : Ledger} {v : Option Image} {a : Option Alias}
    (h : Outcome l' l'' v a) (owned : Owned l l') : Outcome l l'' v a :=
  { h with owned := fun p mine => h.owned p (owned p mine) }

theorem Grows.outcome {l l' : Ledger} (h : Grows l l') (clean : Clean l) : Outcome l l' none none := by
  obtain ⟨temps, rfl, owned⟩ := h
  obtain ⟨⟨image, path, hold, owes, progress⟩, placed, thumb, inserted, aliased, -⟩ := clean
  exact ⟨⟨image, path, hold, owes, progress⟩, placed, thumb, inserted, aliased, owned⟩

theorem rollback_walks {Q : Except Error α → Ledger → Prop} {key id : GoString} {f : Facts}
    {e : Error} (committed : Bool) (idle : l.owes = []) (valid : validKey key = true)
    (placed : l.placed = some (key, f)) (thumb : l.thumb = if committed then some id else none)
    (same : id = key) (next : Q (.error e) { l with placed := none, thumb := none }) :
    Walks P (rollback key id committed e) l Q := by
  refine .seq (removePlaced_walks idle valid placed ?_)
  intro r
  cases committed with
  | false =>
      have : l.thumb = none := by simpa using thumb
      refine .done (at_record (Q := Q) ?_ next)
      rw [← this]
  | true =>
      have : l.thumb = some id := by simpa using thumb
      refine .seq (removeThumb_walks idle (by rwa [same]) this ?_)
      intro r'
      exact .done next

theorem commitThumbnail_walks {Q : Except Error Bool → Ledger → Prop}
    {thumbnailPath : Option GoString} {id : GoString} {f : Facts} (idle : l.owes = [])
    (owned : ∀ path ∈ thumbnailPath, l.temps path ≠ none) (placed : l.placed = some (id, f))
    (failed : ∀ e, Q (.error e) l) (absent : Q (.ok false) l)
    (moved : ∀ path, Q (.ok true) { l.know path .nothing with thumb := some id }) :
    Walks P (commitThumbnail thumbnailPath id) l Q := by
  cases thumbnailPath with
  | none => exact .done absent
  | some path =>
      refine .seq (commitThumbnailTemporary_walks idle (owned path rfl) (.inl ⟨f, placed⟩) ?_ ?_)
      · intro e
        exact .done (failed e)
      · intro _
        exact .done (moved path)

/-- The ledger of a caller that has placed a file, and perhaps a thumbnail, for a row to come. -/
structure Placing (l l' : Ledger) (key : GoString) (f : Facts) (committed : Bool) : Prop where
  settled : Settled l'
  placed : l'.placed = some (key, f)
  thumb : l'.thumb = if committed then some key else none
  inserted : l'.inserted = none
  aliased : l'.aliased = none
  owned : Owned l l'
  valid : validKey key = true

theorem publishImage_walks {l₀ : Ledger} {value : Image} {f : Facts} (committed : Bool)
    (placing : Placing l₀ l value.storageKey f committed) (same : value.id = value.storageKey)
    (dated : value.createdAt = value.updatedAt) (described : f.describe value) :
    Walks P (publishImage value committed) l fun r l' => Outcome l₀ l' r.toOption none := by
  obtain ⟨⟨image, path, hold, owes, progress⟩, placed, thumb, inserted, aliased, owned, valid⟩ :=
    placing
  refine .seq (sync_walks owes ⟨image, path, hold⟩ ?_)
  refine .seq (sync_walks owes hold ?_)
  refine .seq (createImage_walks owes ⟨rfl, rfl, same, dated, f, placed, described⟩ ?_ ?_)
  · intro e
    refine .seq (sync_walks owes rfl ?_)
    refine .seq (sync_walks owes ⟨rfl, path, rfl⟩ ?_)
    refine rollback_walks committed owes valid placed (by rw [same]; exact thumb) same ?_
    exact ⟨⟨rfl, path, rfl, owes, progress⟩, rfl, rfl, inserted, aliased, owned⟩
  · refine .seq (index_walks rfl ?_)
    refine .seq (sync_walks rfl rfl ?_)
    refine .seq (sync_walks rfl ⟨rfl, path, rfl⟩ ?_)
    exact .done ⟨⟨rfl, path, rfl, rfl, progress⟩, rfl, rfl, rfl, aliased, owned⟩

theorem storedDigest_walks {staged : Staged} {p : Prepared}
    (ready : Ready l staged.path ⟨some staged.size, some staged.digest, none⟩ p)
    (idle : l.owes = []) :
    Walks P (storedDigest staged p.selectedPath) l fun r l' =>
      Grows l l' ∧ ∀ stored, r = .ok stored →
        l'.temps p.selectedPath =
          some ⟨some stored.1, some stored.2, some p.metadata.mimeType⟩ := by
  obtain ⟨g, known, mime, same⟩ := ready.selected
  unfold storedDigest
  split
  · refine hashFile_walks idle known ?_ ?_
    · intro e
      exact ⟨.refl l, by simp⟩
    · intro stored
      refine ⟨.know l _ _, ?_⟩
      rintro stored ⟨⟩
      simp [mime]
  · rename_i path
    obtain ⟨size, digest⟩ := same (not_not.mp path)
    refine .done ⟨.refl l, ?_⟩
    rintro stored ⟨⟩
    obtain ⟨gsize, gdigest, gmime⟩ := g
    dsimp only at size digest mime
    rw [known, size, digest, mime]

theorem commitPrepared_walks {staged : Staged} {originalName : GoString} {options : UploadOptions}
    {now : Time} {p : Prepared} (clean : Clean l)
    (ready : Ready l staged.path ⟨some staged.size, some staged.digest, none⟩ p) :
    Walks P (commitPrepared staged originalName options now p) l fun r l' =>
      Outcome l l' r.toOption none := by
  refine .bind (storedDigest_walks ready clean.settled.owes) ?_
  rintro r l₁ ⟨grown, stored⟩
  have clean₁ : Outcome l l₁ none none := grown.outcome clean
  match r with
  | .error e => exact .done clean₁
  | .ok stored' =>
      have known := stored stored' rfl
      have mine : ∀ path ∈ p.thumbnailPath, l₁.temps path ≠ none := fun path isThumb =>
        grown.owned path (ready.thumbnail path isThumb).1
      have apart : ∀ path ∈ p.thumbnailPath, path ≠ p.selectedPath := fun path isThumb =>
        (ready.thumbnail path isThumb).2
      clear stored grown
      obtain ⟨⟨image, path, hold, owes, progress⟩, placed, thumb, inserted, aliased, owned⟩ := clean₁
      refine .seq (newUUID_walks owes ?_ ?_)
      · intro e
        exact .done ⟨⟨image, path, hold, owes, progress⟩, placed, thumb, inserted, aliased, owned⟩
      intro id _
      refine .seq (commitTemporary_walks owes known (Finset.mem_insert_self id _) placed ?_ ?_)
      · intro e
        exact .done ⟨⟨image, path, hold, owes, progress⟩, placed, thumb, inserted, aliased, owned⟩
      intro valid
      have owned' : Owned l (l₁.know p.selectedPath .nothing) := fun q mine =>
        know_owned l₁ _ _ q (owned q mine)
      refine .seq (commitThumbnail_walks owes ?_ rfl ?_ ?_ ?_)
      · intro q isThumb
        exact know_owned l₁ _ _ q (mine q isThumb)
      · intro e
        refine rollback_walks false owes valid rfl thumb rfl ?_
        exact ⟨⟨image, path, hold, owes, progress⟩, rfl, rfl, inserted, aliased, owned'⟩
      · exact publishImage_walks false
          ⟨⟨image, path, hold, owes, progress⟩, rfl, thumb, inserted, aliased, owned', valid⟩
          rfl rfl ⟨rfl, rfl, rfl⟩
      · intro q
        refine publishImage_walks true
          ⟨⟨image, path, hold, owes, progress⟩, rfl, rfl, inserted, aliased, ?_, valid⟩
          rfl rfl ⟨rfl, rfl, rfl⟩
        intro q' mine'
        exact know_owned (l₁.know p.selectedPath .nothing) q .nothing q' (owned' q' mine')

theorem commitStagedUpload_walks {staged : Staged} {originalName : GoString}
    {options : UploadOptions} {now : Time} (clean : Clean l)
    (known : l.temps staged.path = some ⟨some staged.size, some staged.digest, none⟩) :
    Walks P (commitStagedUpload staged originalName options now) l fun r l' =>
      Outcome l l' r.toOption none := by
  unfold commitStagedUpload
  split
  · exact .done clean
  split
  · exact .done clean
  refine .seq (gate_walks clean.settled.owes ?_)
  intro active
  cases active with
  | false => exact .done clean
  | true =>
      refine .bind (prepareImage_walks clean.settled.owes known) ?_
      rintro prepared l₁ ⟨grown, ready⟩
      have clean₁ := grown.outcome clean
      refine .seq (releaseLease_walks clean₁.settled.owes ?_)
      match prepared with
      | .error e => exact .done clean₁
      | .ok p =>
          have ready' := ready p rfl
          refine .bind (commitPrepared_walks clean₁.clean ready') ?_
          intro r l₂ outcome
          refine .seq (removeOptional_walks outcome.settled.owes ?_ ?_)
          · intro q isThumb
            exact outcome.owned q (ready'.thumbnail q isThumb).1
          refine .seq (removeUnless_walks outcome.settled.owes ?_ ?_)
          · obtain ⟨g, chosen, -⟩ := ready'.selected
            exact outcome.owned _ (by simp [chosen])
          exact .done (outcome.after clean₁.owned)

theorem upload_walks {reader : Reader} {originalName : GoString} {options : UploadOptions}
    {now : Time} (clean : Clean l) :
    Walks P (upload P reader originalName options now) l fun r l' =>
      Outcome l l' r.toOption none := by
  unfold upload
  split
  · exact .done clean
  refine .seq (gate_walks clean.settled.owes ?_)
  intro acquired
  cases acquired with
  | false => exact .done clean
  | true =>
      refine .bind (stageReader_walks clean.settled.owes) ?_
      rintro staged l₁ ⟨grown, known⟩
      have clean₁ := grown.grows.outcome clean
      match staged with
      | .error e => exact .seq (releaseLease_walks clean₁.settled.owes (.done clean₁))
      | .ok staged =>
          have mine := (known staged rfl).2
          refine .bind (commitStagedUpload_walks clean₁.clean mine) ?_
          intro r l₂ outcome
          refine .seq (removeTemporary_walks outcome.settled.owes ?_ ?_)
          · exact outcome.owned _ (by simp [mine])
          exact .seq (releaseLease_walks outcome.settled.owes (.done (outcome.after clean₁.owned)))

end Commits

section Imports

theorem publishImport_walks {l₀ : Ledger} {value : Image} {mapping : Alias} {f : Facts}
    (committed : Bool) (placing : Placing l₀ l value.storageKey f committed)
    (same : value.id = value.storageKey) (dated : value.createdAt = value.updatedAt)
    (described : f.describe value) (target : mapping.imageID = value.id)
    (fresh : mapping.id ∈ l.pending)
    (canonical : Delivery.normalizeAliasPath P mapping.path = .ok mapping.path) :
    Walks P (publishImport value mapping committed) l fun r l' =>
      Outcome l₀ l' (r.toOption.map ImportResult.image) (r.toOption.map ImportResult.mapping) := by
  obtain ⟨⟨image, path, hold, owes, progress⟩, placed, thumb, inserted, aliased, owned, valid⟩ :=
    placing
  refine .seq (sync_walks owes ⟨image, path, hold⟩ ?_)
  refine .seq (beginAliasChange_walks owes path hold ?_)
  refine .seq (createImport_walks owes
    ⟨rfl, rfl, same, dated, ⟨f, placed, described⟩, rfl, target, fresh, canonical⟩ ?_ ?_)
  · intro e
    refine .seq (endAliasChange_walks owes rfl rfl ?_)
    refine .seq (sync_walks owes ⟨rfl, rfl, rfl⟩ ?_)
    refine rollback_walks committed owes valid placed (by rw [same]; exact thumb) same ?_
    exact ⟨⟨rfl, rfl, rfl, owes, progress⟩, rfl, rfl, inserted, aliased, owned⟩
  · refine .seq (index_walks rfl ?_)
    refine .seq (index_walks rfl ?_)
    refine .seq (endAliasChange_walks rfl rfl rfl ?_)
    refine .seq (sync_walks rfl ⟨rfl, rfl, rfl⟩ ?_)
    exact .done ⟨⟨rfl, rfl, rfl, rfl, progress⟩, rfl, rfl, rfl, rfl, owned⟩

theorem commitImport_walks {staged : Staged} {originalName aliasPath : GoString}
    {options : ImportOptions} {now : Time} {metadata : Processor.Metadata}
    {thumbnailPath : Option GoString} (clean : Clean l)
    (known : l.temps staged.path =
      some ⟨some staged.size, some staged.digest, some metadata.mimeType⟩)
    (mine : ∀ path ∈ thumbnailPath, l.temps path ≠ none)
    (canonical : Delivery.normalizeAliasPath P aliasPath = .ok aliasPath) :
    Walks P (commitImport staged originalName aliasPath options now metadata thumbnailPath) l
      fun r l' =>
        Outcome l l' (r.toOption.map ImportResult.image) (r.toOption.map ImportResult.mapping) := by
  obtain ⟨⟨image, path, hold, owes, progress⟩, placed, thumb, inserted, aliased, owned⟩ := clean
  refine .seq (newUUID_walks owes ?_ ?_)
  · intro e
    exact .done ⟨⟨image, path, hold, owes, progress⟩, placed, thumb, inserted, aliased, owned⟩
  intro imageID _
  refine .seq (newUUID_walks owes ?_ ?_)
  · intro e
    exact .done ⟨⟨image, path, hold, owes, progress⟩, placed, thumb, inserted, aliased, owned⟩
  intro aliasID fresh
  have apart : aliasID ≠ imageID := by
    rintro rfl
    exact fresh (Finset.mem_insert_self _ _)
  refine .seq (commitTemporary_walks owes known ?_ placed ?_ ?_)
  · exact Finset.mem_insert_of_mem (Finset.mem_insert_self imageID _)
  · intro e
    exact .done ⟨⟨image, path, hold, owes, progress⟩, placed, thumb, inserted, aliased, owned⟩
  intro valid
  have pending : aliasID ∈ (insert aliasID (insert imageID l.pending)).erase imageID :=
    Finset.mem_erase.mpr ⟨apart, Finset.mem_insert_self _ _⟩
  refine .seq (commitThumbnail_walks owes ?_ rfl ?_ ?_ ?_)
  · intro q isThumb
    exact know_owned l _ _ q (mine q isThumb)
  · intro e
    refine rollback_walks false owes valid rfl thumb rfl ?_
    exact ⟨⟨image, path, hold, owes, progress⟩, rfl, rfl, inserted, aliased, know_owned l _ _⟩
  · exact publishImport_walks false
      ⟨⟨image, path, hold, owes, progress⟩, rfl, thumb, inserted, aliased, know_owned l _ _, valid⟩
      rfl rfl ⟨rfl, rfl, rfl⟩ rfl pending canonical
  · intro q
    refine publishImport_walks true
      ⟨⟨image, path, hold, owes, progress⟩, rfl, rfl, inserted, aliased, ?_, valid⟩
      rfl rfl ⟨rfl, rfl, rfl⟩ rfl pending canonical
    intro q' mine'
    exact know_owned (l.know staged.path .nothing) q .nothing q' (know_owned l _ _ q' mine')

theorem prepareImport_walks {sourcePath : GoString} {limits : Processor.Limits} {f : Facts}
    (idle : l.owes = []) (known : l.temps sourcePath = some f) :
    Walks P (prepareImport sourcePath limits) l fun r l' =>
      Grows l l' ∧ ∀ metadata thumbnailPath, r = .ok (metadata, thumbnailPath) →
        l'.temps sourcePath = some { f with mime := some metadata.mimeType } ∧
          ∀ path ∈ thumbnailPath, l'.temps path ≠ none := by
  refine .seq (inspectTemporary_walks idle known ?_ ?_)
  · intro e
    exact .done ⟨.refl l, by simp⟩
  intro metadata
  have seen := Grows.know l sourcePath { f with mime := some metadata.mimeType }
  refine .bind (prepareThumbnail_walks idle) ?_
  rintro thumbnail l₁ ⟨grown, made⟩
  match thumbnail with
  | .error e => exact .done ⟨seen.trans grown.grows, by simp⟩
  | .ok thumbnailPath =>
      refine .done ⟨seen.trans grown.grows, ?_⟩
      rintro metadata thumbnailPath ⟨⟩
      refine ⟨grown.temps (know_self _ _ _), ?_⟩
      rintro path ⟨⟩
      exact (made path rfl).2

theorem importPrepared_walks {staged : Staged} {originalName aliasPath : GoString}
    {options : ImportOptions} {now : Time} (clean : Clean l)
    (known : l.temps staged.path = some ⟨some staged.size, some staged.digest, none⟩)
    (canonical : Delivery.normalizeAliasPath P aliasPath = .ok aliasPath) :
    Walks P (importPrepared staged originalName aliasPath options now) l fun r l' =>
      Outcome l l' (r.toOption.map ImportResult.image) (r.toOption.map ImportResult.mapping) := by
  refine .bind (prepareImport_walks clean.settled.owes known) ?_
  rintro prepared l₁ ⟨grown, made⟩
  have clean₁ := grown.outcome clean
  refine .seq (releaseLease_walks clean₁.settled.owes ?_)
  match prepared with
  | .error e => exact .done clean₁
  | .ok (metadata, thumbnailPath) =>
      obtain ⟨known₁, mine⟩ := made metadata thumbnailPath rfl
      refine .bind (commitImport_walks clean₁.clean known₁ mine canonical) ?_
      intro r l₂ outcome
      refine .seq (removeOptional_walks outcome.settled.owes ?_ ?_)
      · intro q isThumb
        exact outcome.owned q (mine q isThumb)
      exact .done (outcome.after clean₁.owned)

theorem importStaged_walks {staged : Staged} {originalName aliasPath : GoString}
    {options : ImportOptions} {now : Time} (clean : Clean l)
    (known : l.temps staged.path = some ⟨some staged.size, some staged.digest, none⟩) :
    Walks P (importStaged P staged originalName aliasPath options now) l fun r l' =>
      Outcome l l' (r.toOption.map ImportResult.image) (r.toOption.map ImportResult.mapping) := by
  unfold importStaged
  split
  · exact .done clean
  split
  · exact .done clean
  refine .seq (gate_walks clean.settled.owes ?_)
  intro active
  cases active with
  | false => exact .done clean
  | true =>
      simp only [Bool.not_true, Bool.false_eq_true, ↓reduceIte]
      split
      · exact .done clean
      split
      · exact .done clean
      rename_i normalized accepted
      refine .seq (aliasExists_walks clean.settled.owes ?_)
      intro present
      match present with
      | .error e => exact .done clean
      | .ok true => exact .done clean
      | .ok false =>
          exact importPrepared_walks clean known (Delivery.normalizeAliasPath_idempotent accepted)

theorem importImage_walks {reader : Reader} {originalName aliasPath : GoString}
    {options : ImportOptions} {now : Time} (clean : Clean l) :
    Walks P (importImage P reader originalName aliasPath options now) l fun r l' =>
      Outcome l l' (r.toOption.map ImportResult.image) (r.toOption.map ImportResult.mapping) := by
  unfold importImage
  split
  · exact .done clean
  refine .seq (gate_walks clean.settled.owes ?_)
  intro acquired
  cases acquired with
  | false => exact .done clean
  | true =>
      refine .bind (stageReader_walks clean.settled.owes) ?_
      rintro staged l₁ ⟨grown, known⟩
      have clean₁ := grown.grows.outcome clean
      match staged with
      | .error e => exact .seq (releaseLease_walks clean₁.settled.owes (.done clean₁))
      | .ok staged =>
          have mine := (known staged rfl).2
          refine .bind (importStaged_walks clean₁.clean mine) ?_
          intro r l₂ outcome
          refine .seq (removeTemporary_walks outcome.settled.owes ?_ ?_)
          · exact outcome.owned _ (by simp [mine])
          exact .seq (releaseLease_walks outcome.settled.owes (.done (outcome.after clean₁.owned)))

theorem createAlias_walks {path imageID source : GoString} {now : Time} (clean : Clean l) :
    Walks P (createAlias P path imageID source now) l fun r l' =>
      Outcome l l' none r.toOption := by
  unfold createAlias
  split
  · exact .done clean
  rename_i normalized accepted
  split
  · exact .done clean
  split
  · exact .done clean
  obtain ⟨⟨image, path, hold, owes, progress⟩, placed, thumb, inserted, aliased, owned⟩ := clean
  refine .seq (newUUID_walks owes ?_ ?_)
  · intro e
    exact .done ⟨⟨image, path, hold, owes, progress⟩, placed, thumb, inserted, aliased, owned⟩
  intro id _
  refine .seq (sync_walks owes ⟨image, path, hold⟩ ?_)
  refine .seq (beginAliasChange_walks owes path hold ?_)
  refine .seq (createAliasRow_walks owes ⟨rfl, rfl, rfl, Finset.mem_insert_self id _,
    Delivery.normalizeAliasPath_idempotent accepted⟩ ?_ ?_)
  · intro e
    refine .seq (endAliasChange_walks owes rfl rfl ?_)
    refine .seq (sync_walks owes ⟨rfl, rfl, rfl⟩ ?_)
    exact .done ⟨⟨rfl, rfl, rfl, owes, progress⟩, placed, thumb, inserted, aliased, owned⟩
  · refine .seq (index_walks rfl ?_)
    refine .seq (endAliasChange_walks rfl rfl rfl ?_)
    refine .seq (sync_walks rfl ⟨rfl, rfl, rfl⟩ ?_)
    exact .done ⟨⟨rfl, rfl, rfl, rfl, progress⟩, placed, thumb, inserted, rfl, owned⟩

end Imports

end ImageSilo.Publication
