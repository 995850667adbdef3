import ImageSilo.Publication.Walks

/-! Every request keeps the discipline of the image operations: it ends with nothing held and nothing
owed. -/
namespace ImageSilo.Publication

open Go Concurrent Storage

variable {P : Platform} {α : Type} {l : Ledger}

section Aliases

theorem deleteAlias_walks {id : GoString} (settled : Settled l)
    (made : l.request = .deleteAlias id) :
    Walks P (deleteAlias P id) l fun r l' => Settled l' ∧
      (r = .ok () ∨ r = .error .aliasNotFound → P.isCanonicalUUID id = true →
        l'.unaliased = some id) := by
  unfold deleteAlias
  split
  · rename_i malformed
    refine .done ⟨settled, ?_⟩
    intro _ canonical
    simp [canonical] at malformed
  obtain ⟨image, path, hold, owes, progress⟩ := settled
  refine .seq (pathByID_walks owes ?_ ?_ ?_)
  · intro e other
    refine .done ⟨⟨image, path, hold, owes, progress⟩, ?_⟩
    rintro (gone | gone)
    · cases gone
    · cases gone
      exact absurd rfl other
  · exact .done ⟨⟨image, path, hold, owes, progress⟩, fun _ _ => rfl⟩
  intro p
  refine .seq (beginAliasChange_walks owes path hold ?_)
  refine .seq (deleteAliasRow_walks owes ⟨rfl, p, rfl, rfl, made⟩ ?_ ?_ ?_)
  · intro e other
    refine .seq (endAliasChange_walks owes rfl rfl ?_)
    refine .done ⟨⟨image, rfl, rfl, owes, progress⟩, ?_⟩
    rintro (gone | gone)
    · cases gone
    · cases gone
      exact absurd rfl other
  · refine .seq (endAliasChange_walks owes rfl rfl ?_)
    exact .done ⟨⟨image, rfl, rfl, owes, progress⟩, fun _ _ => rfl⟩
  · intro p' same
    refine .seq (index_walks rfl ?_)
    refine .seq (endAliasChange_walks rfl rfl rfl ?_)
    exact .done ⟨⟨image, rfl, rfl, rfl, progress⟩, fun _ _ => rfl⟩

end Aliases

section Images

/-- The caller holds the lock of one image and nothing else. -/
structure Locked (l₀ l : Ledger) (id : GoString) : Prop where
  image : l.image = some id
  path : l.path = none
  hold : l.hold = .free
  owes : l.owes = []
  progress : l.progress = .idle
  owned : Owned l₀ l

theorem Locked.after {l₀ l₁ l₂ : Ledger} {id : GoString} (h : Locked l₁ l₂ id)
    (owned : Owned l₀ l₁) : Locked l₀ l₂ id :=
  { h with owned := fun p mine => h.owned p (owned p mine) }

theorem Locked.grows {l₀ l₁ l₂ : Ledger} {id : GoString} (h : Locked l₀ l₁ id)
    (grown : Grows l₁ l₂) : Locked l₀ l₂ id := by
  obtain ⟨temps, rfl, owned⟩ := grown
  exact ⟨h.image, h.path, h.hold, h.owes, h.progress, fun p mine => owned p (h.owned p mine)⟩

/-- An operation that runs under an image lock of its own. -/
theorem locked_walks {p : Call α} {id : GoString} {R : α → Ledger → Prop} (settled : Settled l)
    (inside : Walks P p { l with image := some id } fun r l' =>
      Locked { l with image := some id } l' id ∧ R r { l' with image := none, row := none }) :
    Walks P (do lockImage id; let r ← p; unlockImage id; pure r) l fun r l' =>
      Settled l' ∧ R r l' := by
  obtain ⟨image, path, hold, owes, progress⟩ := settled
  refine .seq (sync_walks owes ⟨image, path, hold⟩ ?_)
  refine .bind inside ?_
  rintro r l' ⟨locked, told⟩
  refine .seq (sync_walks locked.owes ⟨locked.image, locked.path, locked.hold⟩ ?_)
  exact .done ⟨⟨rfl, locked.path, locked.hold, locked.owes, locked.progress⟩, told⟩

theorem deleteLocked_walks {id : GoString} {l₀ : Ledger} (locked : Locked l₀ l id)
    (unread : l.row = none) (placed : l.placed = none) (thumb : l.thumb = none)
    (made : l.request = .deleteImage id) :
    Walks P (deleteLocked id) l fun r l' => Locked l₀ l' id ∧
      ((∃ v, r = .ok v) ∨ r = .error .imageNotFound → l'.erased = some id) := by
  obtain ⟨image, path, hold, owes, progress, owned⟩ := locked
  refine .seq (sync_walks owes hold ?_)
  refine .seq (deleteImageRow_walks owes ⟨rfl, image, unread, made⟩ ?_ ?_ ?_)
  · intro e other
    refine .seq (sync_walks owes rfl ?_)
    refine .done ⟨⟨image, path, rfl, owes, progress, owned⟩, ?_⟩
    rintro (⟨v, gone⟩ | gone)
    · cases gone
    · cases gone
      exact absurd rfl other
  · refine .seq (sync_walks owes rfl ?_)
    exact .done ⟨⟨image, path, rfl, owes, progress, owned⟩, fun _ => rfl⟩
  · intro v
    refine .seq (index_walks rfl ?_)
    refine .seq (sync_walks rfl rfl ?_)
    refine .seq (removeDead_walks rfl rfl placed ?_)
    intro file
    refine .seq (removeOtherThumb_walks rfl image thumb ?_)
    intro thumbnail
    exact .done ⟨⟨image, path, rfl, rfl, progress, owned⟩, fun _ => rfl⟩

theorem deleteImage_walks {id : GoString} (settled : Settled l) (unread : l.row = none)
    (placed : l.placed = none) (thumb : l.thumb = none) (made : l.request = .deleteImage id) :
    Walks P (deleteImage P id) l fun r l' => Settled l' ∧
      ((∃ v, r = .ok v) ∨ r = .error .imageNotFound → P.isCanonicalUUID id = true →
        l'.erased = some id) := by
  unfold deleteImage
  split
  · rename_i malformed
    refine .done ⟨settled, ?_⟩
    intro _ canonical
    simp [canonical] at malformed
  refine locked_walks settled ?_
  have locked : Locked { l with image := some id } { l with image := some id } id :=
    ⟨rfl, settled.path, settled.hold, settled.owes, settled.progress, fun _ mine => mine⟩
  refine (deleteLocked_walks locked unread placed thumb made).mono ?_
  rintro r l' ⟨locked', told⟩
  exact ⟨locked', fun gone _ => told gone⟩

theorem changeVisibility_walks {id : GoString} {visibility : Visibility} (settled : Settled l)
    (made : l.request = .changeVisibility id visibility) :
    Walks P (changeVisibility id visibility) l fun r l' => Settled l' ∧
      (r = .ok true → l'.changed = some (id, visibility)) := by
  unfold changeVisibility
  split
  · exact .done ⟨settled, by simp⟩
  refine locked_walks settled ?_
  obtain ⟨image, path, hold, owes, progress⟩ := settled
  refine .seq (sync_walks owes hold ?_)
  refine .seq (updateVisibility_walks owes ⟨rfl, rfl, made⟩ ?_ ?_ ?_)
  · intro e
    refine .seq (sync_walks owes rfl ?_)
    exact .done ⟨⟨rfl, path, rfl, owes, progress, fun _ mine => mine⟩, by simp⟩
  · refine .seq (sync_walks owes rfl ?_)
    exact .done ⟨⟨rfl, path, rfl, owes, progress, fun _ mine => mine⟩, by simp⟩
  · refine .seq (index_walks rfl ?_)
    refine .seq (sync_walks rfl rfl ?_)
    exact .done ⟨⟨rfl, path, rfl, rfl, progress, fun _ mine => mine⟩, fun _ => rfl⟩

theorem finishConversion_walks {value : Image} {oldStorageKey : GoString}
    {thumbnailPath : Option GoString} (l₀ : Ledger) (locked : Locked l₀ l value.id)
    (mine : ∀ path ∈ thumbnailPath, l.temps path ≠ none) (dead : l.dead = some oldStorageKey)
    (placed : l.placed = none) (thumb : l.thumb = none) :
    Walks P (finishConversion value oldStorageKey thumbnailPath) l fun r l' =>
      Locked l₀ l' value.id ∧ ∀ path ∈ r.2, l'.temps path ≠ none := by
  cases thumbnailPath with
  | none =>
      refine .seq (removeOtherThumb_walks locked.owes locked.image thumb ?_)
      intro removed
      refine .seq (removeDead_walks locked.owes dead placed ?_)
      intro original
      refine .done ⟨locked, ?_⟩
      intro path isThumb
      split at isThumb <;> cases isThumb
  | some path =>
      refine .seq (commitThumbnailTemporary_walks locked.owes (mine path rfl)
        (.inr locked.image) ?_ ?_)
      · intro e
        refine .seq (removeDead_walks locked.owes dead placed ?_)
        intro original
        refine .done ⟨locked, ?_⟩
        rintro p ⟨⟩
        exact mine path rfl
      · intro _
        refine .seq (removeDead_walks locked.owes dead placed ?_)
        intro original
        have owned := know_owned l path .nothing
        refine .done ⟨⟨locked.image, locked.path, locked.hold, locked.owes, locked.progress,
          fun p mine => owned p (locked.owned p mine)⟩, ?_⟩
        rintro p ⟨⟩

/-- The caller has read the row of the image it has locked. -/
structure Converting (l₀ l : Ledger) (value : Image) : Prop where
  locked : Locked l₀ l value.id
  row : l.row = some value
  placed : l.placed = none
  thumb : l.thumb = none
  made : ∃ options, l.request = .convertToWebP value.id options

theorem Converting.after {l₀ l₁ l₂ : Ledger} {value : Image} (h : Converting l₁ l₂ value)
    (owned : Owned l₀ l₁) : Converting l₀ l₂ value :=
  { h with locked := h.locked.after owned }

theorem Converting.grows {l₀ l₁ l₂ : Ledger} {value : Image} (h : Converting l₀ l₁ value)
    (grown : Grows l₁ l₂) : Converting l₀ l₂ value := by
  obtain ⟨temps, rfl, owned⟩ := grown
  exact ⟨h.locked.grows ⟨temps, rfl, owned⟩, h.row, h.placed, h.thumb, h.made⟩

theorem Converting.know {l₀ l₁ : Ledger} {value : Image} (h : Converting l₀ l₁ value)
    (path : GoString) (f : Facts) : Converting l₀ (l₁.know path f) value :=
  h.grows (.know l₁ path f)

theorem replaceContent_walks {l₀ : Ledger} {old value : Image} {f : Facts}
    {thumbnailPath : Option GoString} (locked : Locked l₀ l old.id) (row : l.row = some old)
    (same : value.id = old.id) (kept : value.visibility = old.visibility)
    (time : l.time = some value.updatedAt) (placed : l.placed = some (value.storageKey, f))
    (described : f.describe value) (valid : validKey value.storageKey = true)
    (thumb : l.thumb = none) (mine : ∀ path ∈ thumbnailPath, l.temps path ≠ none)
    (made : ∃ options, l.request = .convertToWebP value.id options) :
    Walks P (replaceContent value old.storageKey thumbnailPath) l fun r l' =>
      Locked l₀ l' old.id ∧ ∀ path ∈ r.2, l'.temps path ≠ none := by
  rw [← same] at locked ⊢
  obtain ⟨image, path, hold, owes, progress, owned⟩ := locked
  refine .seq (sync_walks owes hold ?_)
  refine .seq (updateContent_walks owes
    ⟨rfl, image, time, ⟨old, row, same.symm, kept, made⟩, f, placed, described⟩ ?_ ?_ ?_)
  · intro e
    refine .seq (sync_walks owes rfl ?_)
    refine .seq (removePlaced_walks owes valid placed ?_)
    intro removed
    exact .done ⟨⟨image, path, rfl, owes, progress, owned⟩, mine⟩
  · refine .seq (sync_walks owes rfl ?_)
    refine .seq (removePlaced_walks owes valid placed ?_)
    intro removed
    exact .done ⟨⟨image, path, rfl, owes, progress, owned⟩, mine⟩
  · refine .seq (index_walks rfl ?_)
    refine .seq (sync_walks rfl rfl ?_)
    exact finishConversion_walks l₀ ⟨image, path, rfl, rfl, progress, owned⟩ mine
      (congrArg (Option.map Image.storageKey) row) rfl thumb

/-- The last part of a conversion, once its file is in place. -/
theorem dateContent_walks {l₀ : Ledger} {value : Image} {metadata : Processor.Metadata}
    {stored : Int × Digest} {key summary : GoString} {thumbnailPath : Option GoString}
    (locked : Locked l₀ l value.id) (row : l.row = some value)
    (placed : l.placed =
      some (key, ⟨some stored.1, some stored.2, some metadata.mimeType⟩))
    (valid : validKey key = true) (thumb : l.thumb = none)
    (mine : ∀ path ∈ thumbnailPath, l.temps path ≠ none)
    (made : ∃ options, l.request = .convertToWebP value.id options) :
    Walks P
      (do
        let now ← clockNow
        replaceContent (convertedImage value metadata stored key summary now) value.storageKey
          thumbnailPath) l
      fun r l' => Locked l₀ l' value.id ∧ ∀ path ∈ r.2, l'.temps path ≠ none := by
  refine .seq (clockNow_walks locked.owes ?_)
  intro now
  have described : Facts.describe ⟨some stored.1, some stored.2, some metadata.mimeType⟩
      (convertedImage value metadata stored key summary now) := ⟨rfl, rfl, rfl⟩
  -- the fields are compared by simp: unification would compare the whole records first
  have same : (convertedImage value metadata stored key summary now).id = value.id := by
    simp only [convertedImage]
  have kept : (convertedImage value metadata stored key summary now).visibility =
      value.visibility := by simp only [convertedImage]
  exact replaceContent_walks
    ⟨locked.image, locked.path, locked.hold, locked.owes, locked.progress, locked.owned⟩ row same
    kept rfl placed described valid thumb mine (by rw [same]; exact made)

theorem publishConversion_walks {l₀ : Ledger} {value : Image} {source metadata : Processor.Metadata}
    {stored : Int × Digest} {outputPath : GoString} {thumbnailPath : Option GoString}
    (converting : Converting l₀ l value)
    (known : l.temps outputPath = some ⟨some stored.1, some stored.2, some metadata.mimeType⟩)
    (mine : ∀ path ∈ thumbnailPath, l.temps path ≠ none) :
    Walks P (publishConversion value source metadata stored outputPath thumbnailPath) l
      fun r l' => Locked l₀ l' value.id ∧ ∀ path ∈ r.2, l'.temps path ≠ none := by
  obtain ⟨⟨image, path, hold, owes, progress, owned⟩, row, placed, thumb, made⟩ := converting
  refine .seq (newUUID_walks owes ?_ ?_)
  · intro e
    exact .done ⟨⟨image, path, hold, owes, progress, owned⟩, mine⟩
  intro key _
  refine .seq (commitTemporary_walks owes known (Finset.mem_insert_self key _) placed ?_ ?_)
  · intro e
    exact .done ⟨⟨image, path, hold, owes, progress, owned⟩, mine⟩
  intro valid
  have kept := know_owned l outputPath .nothing
  refine dateContent_walks ?_ row rfl valid thumb ?_ made
  · exact ⟨image, path, hold, owes, progress, fun p mine => kept p (owned p mine)⟩
  · exact fun p isThumb => kept p (mine p isThumb)

theorem withThumbnail_walks {l₀ : Ledger} {value : Image} {source metadata : Processor.Metadata}
    {stored : Int × Digest} {outputPath : GoString} {thumbnailPath : Option GoString}
    (converting : Converting l₀ l value)
    (known : l.temps outputPath = some ⟨some stored.1, some stored.2, some metadata.mimeType⟩)
    (mine : ∀ path ∈ thumbnailPath, l.temps path ≠ none) :
    Walks P
      (withThumbnail (publishConversion value source metadata stored outputPath) thumbnailPath) l
      fun _ l' => Locked l₀ l' value.id := by
  refine .bind (publishConversion_walks converting known mine) ?_
  rintro ⟨result, remaining⟩ l' ⟨locked, left⟩
  exact .seq (removeOptional_walks locked.owes left (.done locked))

theorem convertThumbnail_walks {l₀ : Ledger} {value : Image} {source metadata : Processor.Metadata}
    {stored : Int × Digest} {outputPath : GoString} (converting : Converting l₀ l value)
    (known : l.temps outputPath = some ⟨some stored.1, some stored.2, some metadata.mimeType⟩) :
    Walks P (convertThumbnail value source metadata stored outputPath) l
      fun _ l' => Locked l₀ l' value.id := by
  have idle := converting.locked.owes
  refine .seq (createTemporary_walks idle ?_ ?_)
  · intro e
    exact .done converting.locked
  intro path fresh
  have apart : outputPath ≠ path := by
    rintro rfl
    rw [known] at fresh
    cases fresh
  have converting₁ := converting.know path .nothing
  refine .seq (closeTemporary_walks idle ?_)
  intro closed
  cases closed with
  | error e => exact discard_walks idle (by simp) converting₁.locked
  | ok _ =>
      refine .seq (thumbnail_walks idle (by simp) ?_)
      intro made
      have converting₂ := converting₁.know path .nothing
      have known₂ : ((l.know path .nothing).know path .nothing).temps outputPath =
          some ⟨some stored.1, some stored.2, some metadata.mimeType⟩ := by
        simpa [Ledger.know, Function.update_of_ne apart] using known
      cases made with
      | ok _ =>
          refine withThumbnail_walks converting₂ known₂ ?_
          rintro p ⟨⟩
          simp
      | error e =>
          dsimp only
          split
          · exact withThumbnail_walks converting₂ known₂ (by simp)
          · exact discard_walks idle (by simp) converting₂.locked

theorem convertOutput_walks {l₀ : Ledger} {value : Image} {source : Processor.Metadata}
    {options : Processor.Options} {outputPath : GoString} (converting : Converting l₀ l value)
    (mine : l.temps outputPath ≠ none) :
    Walks P (convertOutput value source options outputPath) l fun _ l' => Locked l₀ l' value.id := by
  refine .seq (transform_walks converting.locked.owes mine ?_)
  intro transformed
  have converting₁ := converting.know outputPath .nothing
  match transformed with
  | .error e => exact .done converting₁.locked
  | .ok _ =>
      refine .seq (inspectTemporary_walks converting.locked.owes (know_self _ _ _) ?_ ?_)
      · intro e
        exact .done converting₁.locked
      intro metadata
      have converting₂ :=
        converting₁.know outputPath { Facts.nothing with mime := some metadata.mimeType }
      dsimp only
      split
      · exact .done converting₂.locked
      refine .seq (hashFile_walks converting.locked.owes (know_self _ _ _) ?_ ?_)
      · intro e
        exact .done converting₂.locked
      intro stored
      exact convertThumbnail_walks (converting₂.know outputPath _) (know_self _ _ _)

theorem convertGated_walks {l₀ : Ledger} {id : GoString} {options : Processor.Options}
    (locked : Locked l₀ l id) (placed : l.placed = none) (thumb : l.thumb = none)
    (made : ∃ options, l.request = .convertToWebP id options) :
    Walks P (convertGated id options) l fun _ l' => Locked l₀ l' id := by
  obtain ⟨image, path, hold, owes, progress, owned⟩ := locked
  refine .seq (getImage_walks owes image ?_ ?_)
  · intro e
    exact .done ⟨image, path, hold, owes, progress, owned⟩
  rintro value rfl
  have converting : Converting l₀ { l with row := some value } value :=
    ⟨⟨image, path, hold, owes, progress, owned⟩, rfl, placed, thumb, made⟩
  dsimp only
  split
  · exact .done converting.locked
  split
  · exact .done converting.locked
  refine .seq (inspectStored_walks owes ?_)
  intro inspected
  match inspected with
  | .error e => exact .done converting.locked
  | .ok source =>
      refine .seq (createTemporary_walks owes ?_ ?_)
      · intro e
        exact .done converting.locked
      intro outputPath _
      have converting₁ := converting.know outputPath .nothing
      refine .seq (closeTemporary_walks owes ?_)
      intro closed
      match closed with
      | .error e => exact discard_walks owes (by simp) converting₁.locked
      | .ok _ =>
          have inner : Converting (({ l with row := some value } : Ledger).know outputPath .nothing)
              (({ l with row := some value } : Ledger).know outputPath .nothing) value :=
            { converting₁ with locked := { converting₁.locked with owned := fun _ mine => mine } }
          refine .bind (convertOutput_walks inner (by simp)) ?_
          intro r l' locked'
          refine .seq (removeTemporary_walks locked'.owes ?_ (.done ?_))
          · exact locked'.owned outputPath (by simp)
          · exact locked'.after converting₁.locked.owned

theorem convertToWebP_walks {id : GoString} {options : Processor.Options} (settled : Settled l)
    (placed : l.placed = none) (thumb : l.thumb = none)
    (made : l.request = .convertToWebP id options) :
    Walks P (convertToWebP P id options) l fun _ l' => Settled l' := by
  unfold convertToWebP
  split
  · exact .done settled
  have locked : Locked { l with image := some id } { l with image := some id } id :=
    ⟨rfl, settled.path, settled.hold, settled.owes, settled.progress, fun _ mine => mine⟩
  refine (locked_walks (R := fun _ _ => True) settled ?_).mono fun _ _ h => h.1
  refine .seq (gate_walks locked.owes ?_)
  intro acquired
  cases acquired with
  | false => exact .done ⟨locked, trivial⟩
  | true =>
      refine .bind (convertGated_walks locked placed thumb ⟨options, made⟩) ?_
      intro r l' locked'
      refine .seq (gate_walks locked'.owes ?_)
      intro _
      exact .done ⟨locked', trivial⟩

end Images

section Rebuild

/-- The caller has the exclusive side of the rebuild lock and no other lock. -/
structure Rebuilding (l : Ledger) : Prop where
  image : l.image = none
  path : l.path = none
  hold : l.hold = .exclusive
  owes : l.owes = []

/-- An action that the ledger permits and does not write down. -/
theorem inert_walks {a : Action} {Q : Response a → Ledger → Prop} (permitted : l.permits P a)
    (same : ∀ r, l.record P a r = l) (next : ∀ r, Q r l) : Walks P (request a) l Q := by
  refine ⟨permitted, ?_⟩
  intro r _
  exact at_record (Q := Q) (same r) (next r)

theorem addRows_walks {rows : List DeliveryRow} {loading : Delivery.Loading}
    (rebuilding : Rebuilding l) (progress : l.progress = .rows rows loading) :
    Walks P (Delivery.addRows storedSize loading rows) l fun r l' => Rebuilding l' ∧
      ∀ loaded, r = .ok loaded → l'.progress = .rows [] loaded := by
  induction rows generalizing l loading with
  | nil =>
      refine .done ⟨rebuilding, ?_⟩
      rintro loaded ⟨⟩
      exact progress
  | cons row rest ih =>
      have next : ∀ size, Rebuilding { l with progress := .rows rest (loading.addRow row size) } :=
        fun size => ⟨rebuilding.image, rebuilding.path, rebuilding.hold, rebuilding.owes⟩
      unfold Delivery.addRows storedSize openImage
      split
      · exact .done ⟨rebuilding, by simp⟩
      refine .seq (.seq ⟨⟨rebuilding.owes, .inl ⟨row, rest, loading, progress, rfl⟩⟩, ?_⟩)
      intro opened _
      match opened with
      | .ok content =>
          have same : l.recordFile P (.openImage row.storageKey) (.ok content) =
              { l with progress := .rows rest (loading.addRow row (some content.length)) } := by
            simp only [Ledger.recordFile, progress]
          refine at_record (Q := fun _ l' => Walks P _ l' _) (v := ()) same ?_
          exact ih (next _) rfl
      | .error .notExist =>
          have same : l.recordFile P (.openImage row.storageKey) (.error .notExist) =
              { l with progress := .rows rest (loading.addRow row none) } := by
            simp only [Ledger.recordFile, progress]
          refine at_record (Q := fun _ l' => Walks P _ l' _) (v := ()) same ?_
          exact ih (next _) rfl
      | .error .failed =>
          have same : l.recordFile P (.openImage row.storageKey) (.error .failed) =
              { l with progress := .idle } := by
            simp only [Ledger.recordFile, progress]
          refine at_record (Q := fun _ l' => Walks P _ l' _) (v := ()) same ?_
          exact .done ⟨⟨rebuilding.image, rebuilding.path, rebuilding.hold, rebuilding.owes⟩, by simp⟩

theorem build_walks (rebuilding : Rebuilding l) :
    Walks P (Delivery.build P deliverySource) l fun r l' => Rebuilding l' ∧
      ∀ loaded, r = .ok loaded → l'.progress = .ready loaded := by
  refine .seq (statement_walks rebuilding.owes rebuilding.hold ?_)
  intro rows _
  match rows with
  | .error e => exact .done ⟨rebuilding, by simp⟩
  | .ok rows =>
      have reading : Rebuilding { l with progress := .rows rows Delivery.Loading.start } :=
        ⟨rebuilding.image, rebuilding.path, rebuilding.hold, rebuilding.owes⟩
      refine .bind (addRows_walks reading rfl) ?_
      rintro added l' ⟨rebuilding', progress⟩
      match added with
      | .error e => exact .done ⟨rebuilding', by simp⟩
      | .ok loading =>
          refine .seq (statement_walks rebuilding'.owes rebuilding'.hold ?_)
          intro aliases _
          match aliases with
          | .error e => exact .done ⟨rebuilding', by simp⟩
          | .ok aliases =>
              have done := progress loading rfl
              cases loaded : loading.addAliases P aliases with
              | error e =>
                  have same : l'.recordStatement P .aliasRows (.ok aliases) =
                      { l' with progress := .idle } := by
                    simp only [Ledger.recordStatement, done, loaded]
                  refine at_record (Q := fun _ l' => Walks P _ l' _) (v := ()) same ?_
                  refine .done ⟨⟨rebuilding'.image, rebuilding'.path, rebuilding'.hold,
                    rebuilding'.owes⟩, ?_⟩
                  rw [loaded]
                  simp
              | ok loading' =>
                  have same : l'.recordStatement P .aliasRows (.ok aliases) =
                      { l' with progress := .ready loading' } := by
                    simp only [Ledger.recordStatement, done, loaded]
                  refine at_record (Q := fun _ l' => Walks P _ l' _) (v := ()) same ?_
                  refine .done ⟨⟨rebuilding'.image, rebuilding'.path, rebuilding'.hold,
                    rebuilding'.owes⟩, ?_⟩
                  rw [loaded]
                  rintro loaded ⟨⟩
                  rfl

theorem beginRebuild_walks {Q : Unit → Ledger → Prop} (settled : Settled l)
    (next : ∀ l', Rebuilding l' → Q () l') : Walks P beginRebuild l Q := by
  obtain ⟨image, path, hold, owes, progress⟩ := settled
  refine .seq (sync_walks owes ⟨image, path, hold⟩ ?_)
  exact sync_walks owes rfl (next _ ⟨image, path, rfl, owes⟩)

theorem endRebuild_walks {Q : Unit → Ledger → Prop} (rebuilding : Rebuilding l)
    (next : ∀ l', Settled l' → Q () l') : Walks P endRebuild l Q :=
  sync_walks rebuilding.owes rebuilding.hold
    (next _ ⟨rebuilding.image, rebuilding.path, rfl, rebuilding.owes, rfl⟩)

theorem listActiveSessions_walks {now : Time} {Q : Except DatabaseError Auth.SessionIndex → Ledger → Prop}
    (idle : l.owes = []) (next : ∀ r, Q r l) : Walks P (listActiveSessions now) l Q :=
  .seq (statement_walks idle trivial fun _ _ => next _)

theorem listActiveTokens_walks {now : Time} {Q : Except DatabaseError ApiToken.Index → Ledger → Prop}
    (idle : l.owes = []) (next : ∀ r, Q r l) : Walks P (listActiveTokens now) l Q :=
  .seq (statement_walks idle trivial fun _ _ => next _)

theorem rebuild_walks {now : Time} (settled : Settled l) :
    Walks P (rebuild P now) l fun _ l' => Settled l' := by
  refine .seq (beginRebuild_walks settled ?_)
  intro l₁ rebuilding
  refine .bind (Q := fun r l' => Rebuilding l' ∧
    ∀ loaded, r = .ok loaded → l'.progress = .ready loaded.delivery) ?_ ?_
  · refine .bind (build_walks rebuilding) ?_
    rintro built l₂ ⟨rebuilding₂, done⟩
    match built with
    | .error e => exact .done ⟨rebuilding₂, by simp⟩
    | .ok delivery =>
        refine .seq (listActiveSessions_walks rebuilding₂.owes ?_)
        intro sessions
        match sessions with
        | .error e => exact .done ⟨rebuilding₂, by simp⟩
        | .ok sessions =>
            refine .seq (listActiveTokens_walks rebuilding₂.owes ?_)
            intro tokens
            match tokens with
            | .error e => exact .done ⟨rebuilding₂, by simp⟩
            | .ok tokens =>
                refine .done ⟨rebuilding₂, ?_⟩
                rintro loaded ⟨⟩
                exact done delivery rfl
  · rintro r l₂ ⟨rebuilding₂, done⟩
    match r with
    | .error e =>
        refine .seq (endRebuild_walks rebuilding₂ ?_)
        exact fun _ settled => .done settled
    | .ok loaded =>
        have ready := done loaded rfl
        refine .seq ⟨.inr ⟨rebuilding₂.owes, loaded.delivery, ready, rfl⟩, ?_⟩
        intro _ _
        have same : l₂.recordIndex (.replaceAll loaded.delivery.snapshot) =
            { l₂ with progress := .idle } := by
          simp only [Ledger.recordIndex, rebuilding₂.owes]
        refine at_record (Q := fun _ l' => Walks P _ l' _) (v := ()) same ?_
        have rebuilding₃ : Rebuilding { l₂ with progress := .idle } :=
          ⟨rebuilding₂.image, rebuilding₂.path, rebuilding₂.hold, rebuilding₂.owes⟩
        refine .seq (inert_walks rebuilding₃.owes (fun _ => rfl) fun _ => ?_)
        refine .seq (inert_walks rebuilding₃.owes (fun _ => rfl) fun _ => ?_)
        refine .seq (endRebuild_walks rebuilding₃ ?_)
        exact fun _ settled => .done settled

end Rebuild

section Maintenance

theorem cleanFolder_walks {folder : Folder} {referenced : GoString → Bool} {cutoff : Time}
    {entries : List FileEntry} {Q : Cleaned → Ledger → Prop} (idle : l.owes = [])
    (placed : l.placed = none) (thumb : l.thumb = none)
    (allowed : ∀ e ∈ entries, referenced e.key = false → e.modifiedAt ≤ cutoff →
      l.allowsFile (.remove folder e.key)) (next : ∀ r, Q r l) :
    Walks P (cleanFolder folder referenced cutoff entries) l Q := by
  induction entries generalizing Q with
  | nil => exact next _
  | cons e rest ih =>
      have ih' := fun {Q : Cleaned → Ledger → Prop} (next : ∀ r, Q r l) =>
        ih (Q := Q) (fun e' member => allowed e' (List.mem_cons_of_mem e member)) next
      unfold cleanFolder
      split
      · exact ih' next
      rename_i kept
      simp only [Bool.or_eq_true, Bool.not_eq_true', decide_eq_true_eq, not_or, Bool.not_eq_true,
        not_lt] at kept
      refine .seq ?_
      unfold removeKey
      split
      · exact .seq (ih' fun r => .done (next _))
      refine ⟨⟨idle, allowed e List.mem_cons_self kept.1.1 kept.2⟩, ?_⟩
      intro r _
      have same : l.recordFile P (.remove folder e.key) r = l := by
        cases folder <;> simp [Ledger.recordFile, placed, thumb]
      refine at_record (Q := fun _ l' => Walks P _ l' _) (v := ()) same ?_
      exact .seq (ih' fun r => .done (next _))

theorem persistentStats_walks {now : Time} {Q : Except DatabaseError PersistentStats → Ledger → Prop}
    (idle : l.owes = []) (next : ∀ r, Q r l) : Walks P (persistentStats now) l Q := by
  refine .seq (statement_walks idle trivial ?_)
  intro totals _
  match totals with
  | .error e => exact .done (next _)
  | .ok totals =>
      refine .seq (statement_walks idle trivial ?_)
      intro aliases _
      match aliases with
      | .error e => exact .done (next _)
      | .ok aliases =>
          refine .seq (statement_walks idle trivial ?_)
          intro sessions _
          match sessions with
          | .error e => exact .done (next _)
          | .ok sessions => exact .seq (statement_walks idle trivial fun _ _ => .done (next _))

theorem indexStats_walks {Q : IndexStats → Ledger → Prop} (idle : l.owes = [])
    (next : ∀ r, Q r l) : Walks P indexStats l Q := by
  refine .seq (inert_walks idle (fun _ => rfl) fun _ => ?_)
  refine .seq (inert_walks idle (fun _ => rfl) fun _ => ?_)
  refine .seq (inert_walks idle (fun _ => rfl) fun _ => ?_)
  exact .seq (inert_walks idle (fun _ => rfl) fun _ => .done (next _))

theorem listOther_walks {folder : Folder} {Q : Except Error (List FileEntry) → Ledger → Prop}
    (idle : l.owes = []) (other : folder ≠ .images) (next : ∀ r, Q r l) :
    Walks P (listFolder folder) l Q := by
  refine ⟨⟨idle, trivial⟩, ?_⟩
  intro r _
  have same : l.recordFile P (.list folder) r = l := by
    cases folder with
    | images => exact absurd rfl other
    | thumbnails => rfl
    | temporary => rfl
  exact at_record (Q := Q) same (next r)

/-- What the maintenance has read when it begins to remove. -/
structure Scanned (l : Ledger) (s : ScanState) : Prop where
  settled : Settled l
  placed : l.placed = none
  thumb : l.thumb = none
  records : l.records = some s.records
  entries : l.entries = some s.imageFiles

theorem scan_walks {time : Option Time} {request : Request} (clean : Clean l)
    (read : l.time = time) (made : l.request = request) :
    Walks P scan l fun r l' => Settled l' ∧ ∀ s, r = .ok s →
      Scanned l' s ∧ l'.time = time ∧ l'.request = request := by
  obtain ⟨⟨image, path, hold, owes, progress⟩, placed, thumb, -, -, -⟩ := clean
  refine .seq (statement_walks owes trivial ?_)
  intro records _
  match records with
  | .error e => exact .done ⟨⟨image, path, hold, owes, progress⟩, by simp⟩
  | .ok records =>
      refine .seq ⟨⟨owes, trivial⟩, ?_⟩
      intro images _
      match images with
      | .error e => exact .done (.done ⟨⟨image, path, hold, owes, progress⟩, by simp⟩)
      | .ok images =>
          refine .done (.seq (listOther_walks owes (by simp) ?_))
          intro thumbnails
          match thumbnails with
          | .error e => exact .done ⟨⟨image, path, hold, owes, progress⟩, by simp⟩
          | .ok thumbnails =>
              refine .seq (listOther_walks owes (by simp) ?_)
              intro temporary
              match temporary with
              | .error e => exact .done ⟨⟨image, path, hold, owes, progress⟩, by simp⟩
              | .ok temporary =>
                  refine .done ⟨⟨image, path, hold, owes, progress⟩, ?_⟩
                  rintro s ⟨⟩
                  exact ⟨⟨⟨image, path, hold, owes, progress⟩, placed, thumb, rfl, rfl⟩, read, made⟩

theorem inspect_walks {now : Time} (clean : Clean l) :
    Walks P (inspect now) l fun _ l' => Settled l' := by
  refine .bind (scan_walks clean rfl rfl) ?_
  rintro scanned l₁ ⟨settled, -⟩
  match scanned with
  | .error e => exact .done settled
  | .ok s => exact .done settled

theorem expected_none {s : ScanState} {key : GoString} (absent : (s.expected key).isSome = false) :
    ∀ r ∈ s.records, r.storageKey ≠ key := by
  intro r member same
  have : s.records.filter (fun r => r.storageKey == key) = [] := by
    simpa [ScanState.expected] using absent
  simp only [List.filter_eq_nil_iff, beq_iff_eq] at this
  exact this r member same

theorem daily_walks {safetyAge : Int} (clean : Clean l) (made : l.request = .daily safetyAge) :
    Walks P (daily safetyAge) l fun _ l' => Settled l' := by
  refine .seq (clockNow_walks clean.settled.owes ?_)
  intro now
  have clean' : Clean { l with time := some now } := by
    obtain ⟨⟨image, path, hold, owes, progress⟩, placed, thumb, inserted, aliased, -⟩ := clean
    exact ⟨⟨image, path, hold, owes, progress⟩, placed, thumb, inserted, aliased, fun _ m => m⟩
  refine .bind (scan_walks clean' rfl made) ?_
  rintro scanned l₁ ⟨settled, read⟩
  match scanned with
  | .error e => exact .done settled
  | .ok s =>
      obtain ⟨⟨-, placed, thumb, records, entries⟩, time, made₁⟩ := read s rfl
      have daily : ∃ age, l₁.request = .daily age := ⟨safetyAge, made₁⟩
      refine .seq (cleanFolder_walks settled.owes placed thumb ?_ ?_)
      · intro e member unreferenced old
        exact .inr (.inr ⟨safetyAge, now, _, _, made₁, time, records, entries,
          ⟨e, member, rfl, old⟩, expected_none unreferenced⟩)
      intro images
      refine .seq (cleanFolder_walks settled.owes placed thumb ?_ ?_)
      · exact fun _ _ _ _ => .inr (.inr daily)
      intro thumbnails
      refine .seq (cleanFolder_walks settled.owes placed thumb ?_ ?_)
      · exact fun _ _ _ _ => .inr daily
      intro temporary
      refine .seq (persistentStats_walks settled.owes ?_)
      intro persistent
      match persistent with
      | .error e => exact .done settled
      | .ok persistent => exact .seq (indexStats_walks settled.owes fun _ => .done settled)

end Maintenance

section Delivery

/-- What a reply says about the call's lookup and about what it has opened. -/
def Ledger.explains (l : Ledger) (P : Platform) (r : ImageRequest) : Reply → Prop
  | .content target bytes =>
      l.looked = some (some target) ∧ l.opened = some (.ok bytes) ∧
        (target.visibility = .isPrivate → l.admitted = true)
  | .notFound =>
      r.lookup P = none ∨ l.looked = some none ∨ ∃ target, l.looked = some (some target) ∧
        (validKey target.storageKey = false ∨ ∃ e, l.opened = some (.error e))
  | .migration _ => l.looked = some none
  | .urlTokenForbidden => r.lookup P = none
  | .authenticationRequired | .insufficientScope =>
      l.admitted = false ∧ ∃ target, l.looked = some (some target) ∧ target.visibility = .isPrivate

theorem authenticateSession_walks {token : GoString} {now : Time} (settled : Settled l) :
    Walks P (authenticateSession P token now) l fun r l' => Settled l' ∧
      l'.looked = l.looked ∧ l'.admitted = (l.admitted || r.isSome) := by
  unfold authenticateSession
  split
  · exact .done ⟨settled, rfl, by simp⟩
  refine request_walks settled.owes ?_
  intro r _
  exact ⟨⟨settled.image, settled.path, settled.hold, settled.owes, settled.progress⟩, rfl, rfl⟩

theorem tokenAccess_walks {authorization : GoString} (settled : Settled l) :
    Walks P (tokenAccess P authorization) l fun a l' => Settled l' ∧
      l'.looked = l.looked ∧ l'.admitted = (l.admitted || decide (a = .allowed)) := by
  unfold tokenAccess
  split
  · exact .done ⟨settled, rfl, by simp⟩
  refine .seq (clockNow_walks settled.owes ?_)
  intro now
  have settled' := Settled.mk settled.image settled.path settled.hold settled.owes settled.progress
  unfold authenticateToken
  split
  · exact .seq (.done (.done ⟨⟨settled.image, settled.path, settled.hold, settled.owes,
      settled.progress⟩, rfl, by simp⟩))
  refine .seq (request_walks settled.owes ?_)
  intro identity _
  match identity with
  | none =>
      exact .done ⟨⟨settled.image, settled.path, settled.hold, settled.owes, settled.progress⟩,
        rfl, by simp [Ledger.record]⟩
  | some identity =>
      refine .done ⟨⟨settled.image, settled.path, settled.hold, settled.owes, settled.progress⟩,
        rfl, ?_⟩
      cases inScope : identity.hasScope .imagesReadPrivate with
      | true => simp [Ledger.record, inScope]
      | false => simp [Ledger.record, inScope]

theorem privateImageAccess_walks {r : ImageRequest} (settled : Settled l) :
    Walks P (privateImageAccess P r) l fun a l' => Settled l' ∧
      l'.looked = l.looked ∧ l'.admitted = (l.admitted || decide (a = .allowed)) := by
  unfold privateImageAccess
  split
  · exact tokenAccess_walks settled
  refine .seq (clockNow_walks settled.owes ?_)
  intro now
  refine .bind (authenticateSession_walks
    ⟨settled.image, settled.path, settled.hold, settled.owes, settled.progress⟩) ?_
  rintro identity l' ⟨settled', looked, admitted⟩
  match identity with
  | some _ => exact .done ⟨settled', looked, admitted⟩
  | none =>
      refine (tokenAccess_walks settled').mono ?_
      rintro a l'' ⟨settled'', looked', admitted'⟩
      exact ⟨settled'', looked'.trans looked, by simpa [admitted] using admitted'⟩

theorem serveFile_walks {r : ImageRequest} {target : Delivery.Target} (settled : Settled l)
    (looked : l.looked = some (some target))
    (access : target.visibility = .isPrivate → l.admitted = true) :
    Walks P (serveFile target) l fun reply l' => Settled l' ∧ l'.explains P r reply := by
  unfold serveFile openImage
  split
  · rename_i malformed
    refine .seq (.done (.done ⟨settled, ?_⟩))
    exact .inr (.inr ⟨target, looked, .inl (by simpa using malformed)⟩)
  refine .seq ⟨⟨settled.owes, .inr ⟨settled.progress, target, looked, rfl, access⟩⟩, ?_⟩
  intro opened _
  have same : l.recordFile P (.openImage target.storageKey) opened =
      { l with opened := some opened } := by
    simp only [Ledger.recordFile, settled.progress]
  refine at_record (Q := fun _ l' => Walks P _ l' _) (v := ()) same ?_
  have settled' : Settled { l with opened := some opened } :=
    ⟨settled.image, settled.path, settled.hold, settled.owes, settled.progress⟩
  match opened with
  | .error e => exact .done ⟨settled', .inr (.inr ⟨target, looked, .inr ⟨e, rfl⟩⟩)⟩
  | .ok bytes => exact .done ⟨settled', looked, rfl, access⟩

theorem serveTarget_walks {r : ImageRequest} {target : Delivery.Target} (settled : Settled l)
    (looked : l.looked = some (some target)) (unknown : l.admitted = false) :
    Walks P (serveTarget P r target) l fun reply l' => Settled l' ∧ l'.explains P r reply := by
  unfold serveTarget
  split
  · rename_i hidden
    refine .bind (privateImageAccess_walks settled) ?_
    rintro access l' ⟨settled', same, admitted⟩
    rw [unknown, Bool.false_or] at admitted
    match access with
    | .insufficientScope =>
        exact .done ⟨settled', admitted, target, same.trans looked, hidden⟩
    | .denied => exact .done ⟨settled', admitted, target, same.trans looked, hidden⟩
    | .allowed => exact serveFile_walks settled' (same.trans looked) fun _ => admitted
  · rename_i shown
    exact serveFile_walks settled looked fun hidden => absurd hidden shown

theorem serveMigration_walks {r : ImageRequest} {path : GoString} (settled : Settled l)
    (looked : l.looked = some none) :
    Walks P (serveMigration path) l fun reply l' => Settled l' ∧ l'.explains P r reply := by
  unfold serveMigration
  split
  · exact .done ⟨settled, .inr (.inl looked)⟩
  refine .seq ⟨⟨settled.owes, trivial⟩, ?_⟩
  intro opened _
  match opened with
  | none => exact .done ⟨settled, .inr (.inl looked)⟩
  | some image => exact .done ⟨settled, looked⟩

theorem serveAliasUnlocked_walks {r : ImageRequest} (settled : Settled l)
    (made : l.request = .serve r) (unknown : l.admitted = false)
    (unparsed : r.imageID.filter P.isCanonicalUUID = none) :
    Walks P (serveAliasUnlocked P r) l fun reply l' => Settled l' ∧ l'.explains P r reply := by
  unfold serveAliasUnlocked
  split
  · rename_i forbidden
    exact .done ⟨settled, by simp [Ledger.explains, ImageRequest.lookup, forbidden]⟩
  rename_i accepted
  split
  · rename_i malformed
    exact .done ⟨settled, .inl (by simp [ImageRequest.lookup, accepted, unparsed, malformed])⟩
  rename_i path normalized
  have lookup : r.lookup P = some (.byAlias path) := by
    simp [ImageRequest.lookup, accepted, unparsed, normalized]
  refine .seq ⟨⟨settled.owes, r, made, lookup⟩, ?_⟩
  intro target _
  match target with
  | some target =>
      exact serveTarget_walks
        ⟨settled.image, settled.path, settled.hold, settled.owes, settled.progress⟩ rfl unknown
  | none =>
      exact serveMigration_walks
        ⟨settled.image, settled.path, settled.hold, settled.owes, settled.progress⟩ rfl

theorem serve_walks {r : ImageRequest} (settled : Settled l) (made : l.request = .serve r)
    (unknown : l.admitted = false) :
    Walks P (serve P r) l fun reply l' => Settled l' ∧ l'.explains P r reply := by
  unfold serve
  split
  · rename_i rawID routed
    unfold serveUnlocked
    split
    · rename_i forbidden
      exact .done ⟨settled, by simp [Ledger.explains, ImageRequest.lookup, forbidden]⟩
    rename_i accepted
    split
    · rename_i malformed
      refine serveAliasUnlocked_walks settled made unknown ?_
      rw [routed]
      simpa [Option.filter] using malformed
    rename_i canonical
    have lookup : r.lookup P = some (.byID rawID) := by
      simp only [Bool.not_eq_true', Bool.not_eq_false] at canonical
      simp [ImageRequest.lookup, accepted, routed, Option.filter, canonical]
    refine .seq ⟨⟨settled.owes, r, made, lookup⟩, ?_⟩
    intro target _
    match target with
    | none =>
        exact .done ⟨⟨settled.image, settled.path, settled.hold, settled.owes, settled.progress⟩,
          .inr (.inl rfl)⟩
    | some target =>
        exact serveTarget_walks
          ⟨settled.image, settled.path, settled.hold, settled.owes, settled.progress⟩ rfl unknown
  · rename_i routed
    exact serveAliasUnlocked_walks settled made unknown (by rw [routed]; rfl)

end Delivery

section Accounts

theorem loadSessions_walks {now : Time} (settled : Settled l) :
    Walks P (loadSessions now) l fun _ l' => Settled l' := by
  refine .seq (beginRebuild_walks settled ?_)
  intro l₁ rebuilding
  refine .seq (listActiveSessions_walks rebuilding.owes ?_)
  intro sessions
  match sessions with
  | .error e => exact .seq (endRebuild_walks rebuilding fun _ settled => .done settled)
  | .ok sessions =>
      refine .seq (inert_walks rebuilding.owes (fun _ => rfl) fun _ => ?_)
      exact .seq (endRebuild_walks rebuilding fun _ settled => .done settled)

theorem loadTokens_walks {now : Time} (settled : Settled l) :
    Walks P (loadTokens now) l fun _ l' => Settled l' := by
  refine .seq (beginRebuild_walks settled ?_)
  intro l₁ rebuilding
  refine .seq (listActiveTokens_walks rebuilding.owes ?_)
  intro tokens
  match tokens with
  | .error e => exact .seq (endRebuild_walks rebuilding fun _ settled => .done settled)
  | .ok tokens =>
      refine .seq (inert_walks rebuilding.owes (fun _ => rfl) fun _ => ?_)
      exact .seq (endRebuild_walks rebuilding fun _ settled => .done settled)

/-- A call of an account operation is settled but for the shared side of the rebuild lock. -/
theorem changing_walks {p : Call α} (settled : Settled l)
    (inside : Walks P p { l with hold := .shared } fun _ l' => Settled l') :
    Walks P (do beginChange; p) l fun _ l' => Settled l' :=
  .seq (sync_walks settled.owes settled.hold inside)

/-- A statement on the accounts, and the end of the change on either side of it. -/
theorem account_walks {q : Statement} {f : Except DatabaseError q.Value → Call α}
    (idle : l.owes = []) (allowed : l.allows P q)
    (same : ∀ r, l.recordStatement P q r = l) (next : ∀ r, Walks P (f r) l fun _ l' => Settled l') :
    Walks P (statement q >>= f) l fun _ l' => Settled l' := by
  refine .seq (statement_walks idle allowed ?_)
  intro r _
  rw [same r]
  exact next r

theorem endChange_walks {p : Call α} {l₀ : Ledger} (settled : Settled l₀)
    (rest : Walks P p { l₀ with hold := .free } fun _ l' => Settled l') :
    Walks P (do endChange; p) { l₀ with hold := .shared } fun _ l' => Settled l' :=
  .seq (sync_walks settled.owes rfl rest)

theorem released (settled : Settled l) : Settled { l with hold := .free } :=
  ⟨settled.image, settled.path, rfl, settled.owes, settled.progress⟩

theorem newRandomToken_walks {text : GoString} {Q : Except Error (GoString × Digest) → Ledger → Prop}
    (idle : l.owes = []) (next : ∀ r, Q r l) : Walks P (newRandomToken P text) l Q :=
  .seq (inert_walks idle (fun _ => rfl) fun _ => next _)

theorem publishSession_walks {session : Auth.Session} {identity : Auth.SessionIdentity}
    {token csrfToken : GoString} (settled : Settled l) :
    Walks P (publishSession session identity token csrfToken) l fun _ l' => Settled l' := by
  refine changing_walks settled (account_walks settled.owes trivial (fun _ => rfl) ?_)
  intro created
  match created with
  | .error e => exact endChange_walks settled (.done (released settled))
  | .ok _ =>
      refine .seq (inert_walks settled.owes (fun _ => rfl) fun _ => ?_)
      exact endChange_walks settled (.done (released settled))

theorem createSessionFor_walks {admin : Auth.Admin} {now : Time} (settled : Settled l) :
    Walks P (createSessionFor P admin now) l fun _ l' => Settled l' := by
  refine .seq (newRandomToken_walks settled.owes ?_)
  intro drawn
  match drawn with
  | .error e => exact .done settled
  | .ok (token, hash) =>
      refine .seq (newRandomToken_walks settled.owes ?_)
      intro drawn
      match drawn with
      | .error e => exact .done settled
      | .ok (csrfToken, csrfHash) =>
          refine .seq (newUUID_walks settled.owes (fun _ => .done settled) ?_)
          intro id _
          exact publishSession_walks
            ⟨settled.image, settled.path, settled.hold, settled.owes, settled.progress⟩

/-- An operation between the two sides of a mutex of the account services. -/
theorem mutex_walks {p : Call α} {lock unlock : Sync} (settled : Settled l)
    (locks : ∀ l : Ledger, l.allowsSync lock ∧ l.recordSync lock = l)
    (unlocks : ∀ l : Ledger, l.allowsSync unlock ∧ l.recordSync unlock = l)
    (inside : Walks P p l fun _ l' => Settled l') :
    Walks P (do sync lock; let r ← p; sync unlock; pure r) l fun _ l' => Settled l' := by
  refine .seq (sync_walks settled.owes (locks l).1 ?_)
  rw [(locks l).2]
  refine .bind inside ?_
  intro r l' settled'
  refine .seq (sync_walks settled'.owes (unlocks l').1 ?_)
  rw [(unlocks l').2]
  exact .done settled'

theorem loginLocked_walks {email password : GoString} {now : Time} (settled : Settled l) :
    Walks P (loginLocked P email password now) l fun _ l' => Settled l' := by
  refine account_walks settled.owes trivial (fun _ => rfl) ?_
  intro found
  match found with
  | .error .noRows =>
      dsimp only
      split
      · exact .done settled
      · exact .done settled
  | .error .unique => exact .done settled
  | .error .failed => exact .done settled
  | .ok admin =>
      dsimp only
      split
      · exact .done settled
      · exact .done settled
      · exact createSessionFor_walks settled

theorem updateProfile_walks {identity : Auth.SessionIdentity} {displayName email : GoString}
    {now : Time} (settled : Settled l) :
    Walks P (updateProfile P identity displayName email now) l fun _ l' => Settled l' := by
  unfold updateProfile
  split
  · exact .done settled
  split
  · exact .done settled
  refine mutex_walks settled (fun _ => ⟨trivial, rfl⟩) (fun _ => ⟨trivial, rfl⟩) ?_
  refine changing_walks settled (account_walks settled.owes trivial (fun _ => rfl) ?_)
  intro updated
  match updated with
  | .error .unique => exact endChange_walks settled (.done (released settled))
  | .error .noRows => exact endChange_walks settled (.done (released settled))
  | .error .failed => exact endChange_walks settled (.done (released settled))
  | .ok false => exact endChange_walks settled (.done (released settled))
  | .ok true =>
      refine .seq (inert_walks settled.owes (fun _ => rfl) fun _ => ?_)
      exact endChange_walks settled (.done (released settled))

theorem logout_walks {token : GoString} (settled : Settled l) :
    Walks P (logout P token) l fun _ l' => Settled l' := by
  unfold logout
  split
  · exact .done settled
  refine changing_walks settled (account_walks settled.owes trivial (fun _ => rfl) ?_)
  intro deleted
  match deleted with
  | .error e => exact endChange_walks settled (.done (released settled))
  | .ok _ =>
      refine .seq (inert_walks settled.owes (fun _ => rfl) fun _ => ?_)
      exact endChange_walks settled (.done (released settled))

theorem changePasswordLocked_walks {adminID sessionToken currentPassword newPassword : GoString}
    {now : Time} (settled : Settled l) :
    Walks P (changePasswordLocked P adminID sessionToken currentPassword newPassword now) l
      fun _ l' => Settled l' := by
  refine account_walks settled.owes trivial (fun _ => rfl) ?_
  intro found
  match found with
  | .error e => exact .done settled
  | .ok admin =>
      dsimp only
      split
      · exact .done settled
      · exact .done settled
      unfold hashPassword
      split
      · exact .seq (.done (.done settled))
      split
      · exact .seq (.done (.done settled))
      refine .seq (inert_walks settled.owes (fun _ => rfl) ?_)
      intro hashed
      match hashed with
      | .error e => exact .done settled
      | .ok newHash =>
          refine changing_walks settled (account_walks settled.owes trivial (fun _ => rfl) ?_)
          intro changed
          match changed with
          | .error e => exact endChange_walks settled (.done (released settled))
          | .ok _ =>
              refine .seq (inert_walks settled.owes (fun _ => rfl) fun _ => ?_)
              exact endChange_walks settled (.done (released settled))

theorem cleanupSessions_walks {now : Time} (settled : Settled l) :
    Walks P (cleanupSessions now) l fun _ l' => Settled l' := by
  refine changing_walks settled (account_walks settled.owes trivial (fun _ => rfl) ?_)
  intro deleted
  match deleted with
  | .error e => exact endChange_walks settled (.done (released settled))
  | .ok _ =>
      refine .seq (inert_walks settled.owes (fun _ => rfl) fun _ => ?_)
      exact endChange_walks settled (.done (released settled))

/-- A token mutation: the mutex, then the shared side of the rebuild lock. -/
theorem mutation_walks {p : Call α} (settled : Settled l)
    (inside : Walks P p { l with hold := .shared } fun _ l' => Settled l') :
    Walks P (do sync .lockMutations; beginChange; p) l fun _ l' => Settled l' :=
  .seq (sync_walks settled.owes trivial (changing_walks settled inside))

theorem endMutation_walks {v : α} (l₀ : Ledger) (settled : Settled l₀) :
    Walks P (do endChange; sync .unlockMutations; pure v) { l₀ with hold := .shared }
      fun _ l' => Settled l' :=
  endChange_walks settled (.seq (sync_walks settled.owes trivial (.done (released settled))))

theorem createToken_walks {name : GoString} {scopes : List (Option ApiToken.Scope)}
    {expiresAt : Option Time} {now : Time} (settled : Settled l) :
    Walks P (createToken P name scopes expiresAt now) l fun _ l' => Settled l' := by
  unfold createToken
  dsimp only
  split
  · exact .done settled
  split
  · exact .done settled
  split
  · exact .done settled
  refine .seq (newRandomToken_walks settled.owes ?_)
  intro drawn
  match drawn with
  | .error e => exact .done settled
  | .ok (plaintext, hash) =>
      refine .seq (newUUID_walks settled.owes (fun _ => .done settled) ?_)
      intro id _
      have settled' := Settled.mk settled.image settled.path settled.hold settled.owes
        settled.progress
      refine mutation_walks ⟨settled.image, settled.path, settled.hold, settled.owes,
        settled.progress⟩ (account_walks settled.owes trivial (fun _ => rfl) ?_)
      intro created
      match created with
      | .error e =>
          exact endMutation_walks { l with pending := insert id l.pending }
            ⟨settled.image, settled.path, settled.hold, settled.owes, settled.progress⟩
      | .ok _ =>
          refine .seq (inert_walks settled.owes (fun _ => rfl) fun _ => ?_)
          exact endMutation_walks { l with pending := insert id l.pending }
            ⟨settled.image, settled.path, settled.hold, settled.owes, settled.progress⟩

theorem revokeToken_walks {id : GoString} (settled : Settled l) :
    Walks P (revokeToken id) l fun _ l' => Settled l' := by
  refine mutation_walks settled (account_walks settled.owes trivial (fun _ => rfl) ?_)
  intro revoked
  match revoked with
  | .error e => exact endMutation_walks l settled
  | .ok hash =>
      refine .seq (inert_walks settled.owes (fun _ => rfl) fun _ => ?_)
      exact endMutation_walks l settled

theorem cleanupTokens_walks {now : Time} (settled : Settled l) :
    Walks P (cleanupTokens now) l fun _ l' => Settled l' := by
  refine changing_walks settled (.seq (inert_walks settled.owes (fun _ => rfl) fun _ => ?_))
  exact sync_walks settled.owes rfl (released (l := l) settled)

theorem authenticateToken_walks {plaintext : GoString} {now : Time} (settled : Settled l) :
    Walks P (authenticateToken P plaintext now) l fun _ l' => Settled l' := by
  unfold authenticateToken
  split
  · exact .done settled
  refine request_walks settled.owes ?_
  intro r _
  exact ⟨settled.image, settled.path, settled.hold, settled.owes, settled.progress⟩

end Accounts

/-- A publishing operation has written down exactly these rows and has left no file without one. -/
def Ledger.published (l : Ledger) (inserted : Option Image) (aliased : Option Alias) : Prop :=
  l.inserted = inserted ∧ l.aliased = aliased ∧ l.placed = none ∧ l.thumb = none

/-- What the result of a call says about its ledger. -/
def Ledger.tells (l : Ledger) (P : Platform) : Request → Result → Prop
  | _, .uploaded r => l.published r.toOption none
  | _, .imported r =>
      l.published (r.toOption.map ImportResult.image) (r.toOption.map ImportResult.mapping)
  | _, .aliasCreated r => l.published none r.toOption
  | .deleteAlias id, .aliasDeleted r =>
      r = .ok () ∨ r = .error .aliasNotFound → P.isCanonicalUUID id = true → l.unaliased = some id
  | .deleteImage id, .imageDeleted r =>
      (∃ v, r = .ok v) ∨ r = .error .imageNotFound → P.isCanonicalUUID id = true →
        l.erased = some id
  | .changeVisibility id visibility, .visibilityChanged r =>
      r = .ok true → l.changed = some (id, visibility)
  | .serve r, .replied reply => l.explains P r reply
  | _, _ => True

/-- A finished call. -/
structure Finished (P : Platform) (request : Request) (r : Result) (l : Ledger) : Prop where
  settled : Settled l
  told : l.tells P request r

theorem Ledger.begin_settled (request : Request) : Settled (Ledger.begin request) :=
  ⟨rfl, rfl, rfl, rfl, rfl⟩

theorem Ledger.begin_clean (request : Request) : Clean (Ledger.begin request) :=
  ⟨Ledger.begin_settled request, rfl, rfl, rfl, rfl, fun _ owned => owned⟩

theorem returning_walks {p : Call α} {f : α → Result} {Q : Result → Ledger → Prop}
    (h : Walks P p l fun v l' => Q (f v) l') : Walks P (returning p f) l Q :=
  .seq (h.mono fun _ _ q => .done q)

/-- Every request, from the ledger of an idle call, asks for permitted actions only and ends
settled. -/
theorem request_obeys (request : Request) :
    Walks P (request.program P) (Ledger.begin request)
      fun r l' => Finished P request r l' := by
  have settled := Ledger.begin_settled request
  have clean := Ledger.begin_clean request
  cases request with
  | upload =>
      refine returning_walks ((upload_walks clean).mono ?_)
      exact fun _ _ h => ⟨h.settled, h.inserted, h.aliased, h.placed, h.thumb⟩
  | importImage =>
      refine returning_walks ((importImage_walks clean).mono ?_)
      exact fun _ _ h => ⟨h.settled, h.inserted, h.aliased, h.placed, h.thumb⟩
  | createAlias =>
      refine returning_walks ((createAlias_walks clean).mono ?_)
      exact fun _ _ h => ⟨h.settled, h.inserted, h.aliased, h.placed, h.thumb⟩
  | deleteAlias =>
      refine returning_walks ((deleteAlias_walks settled rfl).mono ?_)
      exact fun _ _ h => ⟨h.1, h.2⟩
  | deleteImage =>
      refine returning_walks ((deleteImage_walks settled rfl rfl rfl rfl).mono ?_)
      exact fun _ _ h => ⟨h.1, h.2⟩
  | changeVisibility =>
      refine returning_walks ((changeVisibility_walks settled rfl).mono ?_)
      exact fun _ _ h => ⟨h.1, h.2⟩
  | convertToWebP =>
      refine returning_walks ((convertToWebP_walks settled rfl rfl rfl).mono ?_)
      exact fun _ _ h => ⟨h, trivial⟩
  | rebuild =>
      exact returning_walks ((rebuild_walks settled).mono fun _ _ h => ⟨h, trivial⟩)
  | inspect =>
      exact returning_walks ((inspect_walks clean).mono fun _ _ h => ⟨h, trivial⟩)
  | daily =>
      exact returning_walks ((daily_walks clean rfl).mono fun _ _ h => ⟨h, trivial⟩)
  | serve =>
      refine returning_walks ((serve_walks settled rfl rfl).mono ?_)
      exact fun _ _ h => ⟨h.1, h.2⟩
  | login =>
      refine returning_walks (.mono (mutex_walks settled (fun _ => ⟨trivial, rfl⟩)
        (fun _ => ⟨trivial, rfl⟩) (loginLocked_walks settled)) ?_)
      exact fun _ _ h => ⟨h, trivial⟩
  | logout =>
      exact returning_walks ((logout_walks settled).mono fun _ _ h => ⟨h, trivial⟩)
  | updateProfile =>
      exact returning_walks
        ((updateProfile_walks settled).mono fun _ _ h => ⟨h, trivial⟩)
  | changePassword =>
      refine returning_walks (.mono (mutex_walks settled (fun _ => ⟨trivial, rfl⟩)
        (fun _ => ⟨trivial, rfl⟩) (changePasswordLocked_walks settled)) ?_)
      exact fun _ _ h => ⟨h, trivial⟩
  | cleanupSessions =>
      exact returning_walks
        ((cleanupSessions_walks settled).mono fun _ _ h => ⟨h, trivial⟩)
  | loadSessions =>
      exact returning_walks ((loadSessions_walks settled).mono fun _ _ h => ⟨h, trivial⟩)
  | createToken =>
      exact returning_walks ((createToken_walks settled).mono fun _ _ h => ⟨h, trivial⟩)
  | revokeToken =>
      exact returning_walks ((revokeToken_walks settled).mono fun _ _ h => ⟨h, trivial⟩)
  | cleanupTokens =>
      exact returning_walks
        ((cleanupTokens_walks settled).mono fun _ _ h => ⟨h, trivial⟩)
  | loadTokens =>
      exact returning_walks ((loadTokens_walks settled).mono fun _ _ h => ⟨h, trivial⟩)
  | authenticateSession =>
      exact returning_walks
        ((authenticateSession_walks settled).mono fun _ _ h => ⟨h.1, trivial⟩)
  | authenticateToken =>
      exact returning_walks
        ((authenticateToken_walks settled).mono fun _ _ h => ⟨h, trivial⟩)

end ImageSilo.Publication
