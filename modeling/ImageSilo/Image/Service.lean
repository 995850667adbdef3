import ImageSilo.System.Calls

/-! `Upload`, `Delete`, `ChangeVisibility` and `ConvertToWebP` step by step. -/
namespace ImageSilo

open Go Concurrent Storage

/-- An `io.Reader`: its bytes, and whether it then fails instead of ending. -/
structure Reader where
  content : Bytes
  fails : Bool

structure Staged where
  path : GoString
  size : Int
  digest : Digest

variable (P : Platform)

/-- The copy of a reader into a temporary file that both services begin with. -/
def stageReader (defaultMaxBytes : Int) (reader : Reader) (maxBytes : Int) :
    Call (Except Error Staged) := do
  let maxBytes := if maxBytes ≤ 0 then defaultMaxBytes else maxBytes
  match ← createTemporary with
  | .error e => pure (.error e)
  | .ok path =>
      let limited := reader.content.take (maxBytes + 1).toNat
      let copied : Except Error Unit ← file (.write path limited)
      let closed ← closeTemporary path
      match copied, closed with
      | .error e, _ => discard path e
      | .ok _, .error e => discard path e
      | .ok _, .ok _ =>
          if reader.fails ∧ limited.length < maxBytes + 1 then discard path .storage
          else if limited = [] then discard path .invalidImage
          else if maxBytes < limited.length then discard path .fileTooLarge
          else pure (.ok ⟨path, limited.length, P.sha256 limited⟩)

def stageUpload (reader : Reader) (maxBytes : Int) : Call (Except Error Staged) :=
  stageReader P maxUploadBytes reader maxBytes

/-- The file chosen for storage and how it came about. -/
structure Transformed where
  metadata : Processor.Metadata
  selectedPath : GoString
  plan : Processor.Plan
  compressionRejected : Bool

structure Prepared where
  metadata : Processor.Metadata
  selectedPath : GoString
  thumbnailPath : Option GoString
  summary : GoString

def removeUnless (path sourcePath : GoString) : Call Unit :=
  if path ≠ sourcePath then removeTemporary path else pure ()

def removeOptional (path : Option GoString) : Call Unit :=
  match path with
  | none => pure ()
  | some path => removeTemporary path

def transformImage (sourcePath : GoString) (sourceSize : Int) (options : UploadOptions)
    (sourceMetadata : Processor.Metadata) : Call (Except Error Transformed) :=
  let plan := Processor.selectPlan sourceMetadata options.processing
  if plan.action = .preserve then pure (.ok ⟨sourceMetadata, sourcePath, plan, false⟩)
  else do
    match ← createTemporary with
    | .error e => pure (.error e)
    | .ok outputPath =>
        match ← closeTemporary outputPath with
        | .error e => discard outputPath e
        | .ok _ =>
            let transformed : Except Processor.Error Unit ←
              file (.transform (.temporary sourcePath) outputPath sourceMetadata options.processing
                plan)
            match transformed with
            | .error e => discard outputPath (.processor e)
            | .ok _ =>
                let size : Except Error Int ← file (.statTemporary outputPath)
                match size with
                | .error e => discard outputPath e
                | .ok size =>
                    if plan.action = .compress ∧ sourceSize ≤ size then
                      removeTemporary outputPath
                      pure (.ok
                        ⟨sourceMetadata, sourcePath, ⟨.preserve, sourceMetadata.format⟩, true⟩)
                    else
                      match ← inspectFile (.temporary outputPath) options.limits with
                      | .error e => discard outputPath e
                      | .ok metadata =>
                          if metadata.format ≠ plan.outputFormat ∨
                              metadata.width ≠ sourceMetadata.width ∨
                              metadata.height ≠ sourceMetadata.height then
                            discard outputPath (.processor .invalidImage)
                          else pure (.ok ⟨metadata, outputPath, plan, false⟩)

/-- A thumbnail in a temporary file, or none when the processor is unavailable. -/
def prepareThumbnail (input : GoString) : Call (Except Error (Option GoString)) := do
  match ← createTemporary with
  | .error e => pure (.error e)
  | .ok path =>
      match ← closeTemporary path with
      | .error e => discard path e
      | .ok _ =>
          let made : Except Processor.Error Unit ← file (.thumbnail (.temporary input) path)
          match made with
          | .ok _ => pure (.ok (some path))
          | .error e =>
              removeTemporary path
              if e = .unavailable then pure (.ok none) else pure (.error (.processor e))

def prepareImage (sourcePath : GoString) (sourceSize : Int) (options : UploadOptions) :
    Call (Except Error Prepared) := do
  match ← inspectFile (.temporary sourcePath) options.limits with
  | .error e => pure (.error e)
  | .ok sourceMetadata =>
      match ← transformImage sourcePath sourceSize options sourceMetadata with
      | .error e => pure (.error e)
      | .ok t =>
          match ← prepareThumbnail t.selectedPath with
          | .error e =>
              removeUnless t.selectedPath sourcePath
              pure (.error e)
          | .ok thumbnailPath =>
              let summary : ProcessingSummary :=
                { action := t.plan.action
                  sourceFormat := sourceMetadata.format
                  storedFormat := t.metadata.format
                  preserved := t.plan.action = .preserve
                  compressionEnabled := options.processing.compressionEnabled
                  conversionEnabled := options.processing.conversionEnabled
                  compressionRejected := t.compressionRejected }
              pure (.ok ⟨t.metadata, t.selectedPath, thumbnailPath, summary.encode⟩)

/-- Commits the thumbnail if there is one; the answer tells whether there was. -/
def commitThumbnail (thumbnailPath : Option GoString) (id : GoString) : Call (Except Error Bool) :=
  match thumbnailPath with
  | none => pure (.ok false)
  | some path => do
      match ← commitThumbnailTemporary path id with
      | .error e => pure (.error e)
      | .ok _ => pure (.ok true)

/-- The deferred undoing of a commit that has not reached the database. -/
def rollback {α : Type} (storageKey id : GoString) (thumbnailCommitted : Bool) (e : Error) :
    Call (Except Error α) := do
  let _ ← removeKey .images storageKey
  if thumbnailCommitted then
    let _ ← removeKey .thumbnails id
    pure (.error e)
  else pure (.error e)

/-- Row and index target of an image whose files are in place. -/
def publishImage (value : Image) (thumbnailCommitted : Bool) : Call (Except Error Image) := do
  lockImage value.id
  beginChange
  match ← createImage value with
  | .error e =>
      endChange
      unlockImage value.id
      rollback value.storageKey value.id thumbnailCommitted e
  | .ok _ =>
      index (.add value.id (Delivery.targetOf value))
      endChange
      unlockImage value.id
      pure (.ok value)

def storedDigest (staged : Staged) (selectedPath : GoString) :
    Call (Except Error (Int × Digest)) :=
  if selectedPath ≠ staged.path then hashFile selectedPath
  else pure (.ok (staged.size, staged.digest))

def uploadedImage (staged : Staged) (originalName : GoString) (options : UploadOptions)
    (now : Time) (prepared : Prepared) (stored : Int × Digest) (id : GoString) : Image :=
  { id := id
    originalName := sanitizeOriginalName originalName
    storageKey := id
    extension := prepared.metadata.extension
    mimeType := prepared.metadata.mimeType
    width := prepared.metadata.width
    height := prepared.metadata.height
    sourceSize := staged.size
    storedSize := stored.1
    sourceSHA256 := staged.digest
    storedSHA256 := stored.2
    processingSummary := prepared.summary
    visibility := options.visibility
    uploadedVia := options.uploadedVia
    uploadedByAPITokenID := options.uploadedByAPITokenID
    createdAt := now
    updatedAt := now }

/-- From the prepared files to the published image. -/
def commitPrepared (staged : Staged) (originalName : GoString) (options : UploadOptions)
    (now : Time) (prepared : Prepared) : Call (Except Error Image) := do
  match ← storedDigest staged prepared.selectedPath with
  | .error e => pure (.error e)
  | .ok stored =>
      match ← newUUID with
      | .error e => pure (.error e)
      | .ok id =>
          match ← commitTemporary prepared.selectedPath id with
          | .error e => pure (.error e)
          | .ok _ =>
              match ← commitThumbnail prepared.thumbnailPath id with
              | .error e => rollback id id false e
              | .ok thumbnailCommitted =>
                  publishImage (uploadedImage staged originalName options now prepared stored id)
                    thumbnailCommitted

def commitStagedUpload (staged : Staged) (originalName : GoString) (options : UploadOptions)
    (now : Time) : Call (Except Error Image) :=
  match normalizeUploadOptions options with
  | .error e => pure (.error e)
  | .ok options =>
      if staged.path = [] ∨ staged.size ≤ 0 ∨ options.limits.maxBytes < staged.size then
        pure (.error .invalidImage)
      else do
        let active ← gate .leaseActive
        if !active then pure (.error .processingBusy)
        else
          let prepared ← prepareImage staged.path staged.size options
          releaseLease
          match prepared with
          | .error e => pure (.error (mapProcessorError e))
          | .ok prepared =>
              let result ← commitPrepared staged originalName options now prepared
              removeOptional prepared.thumbnailPath
              removeUnless prepared.selectedPath staged.path
              pure result

def upload (reader : Reader) (originalName : GoString) (options : UploadOptions) (now : Time) :
    Call (Except Error Image) :=
  match normalizeUploadOptions options with
  | .error e => pure (.error e)
  | .ok options => do
      let acquired ← gate .tryAcquireLease
      if !acquired then pure (.error .processingBusy)
      else
        match ← stageUpload P reader options.limits.maxBytes with
        | .error e =>
            releaseLease
            pure (.error e)
        | .ok staged =>
            let result ← commitStagedUpload staged originalName options now
            removeTemporary staged.path
            releaseLease
            pure result

def deleteLocked (id : GoString) : Call (Except Error DeleteResult) := do
  beginChange
  match ← deleteImageRow id with
  | .error e =>
      endChange
      pure (.error e)
  | .ok deleted =>
      index (.removeImage id)
      endChange
      let imageFile ← removeKey .images deleted.storageKey
      let thumbnail ← removeKey .thumbnails id
      pure (.ok
        { imageID := id
          imageFileDeleted := imageFile.isOk
          thumbnailDeleted := thumbnail.isOk
          cleanupPending := !imageFile.isOk || !thumbnail.isOk })

def deleteImage (id : GoString) : Call (Except Error DeleteResult) :=
  if !P.isCanonicalUUID id then pure (.error .imageNotFound)
  else do
    lockImage id
    let result ← deleteLocked id
    unlockImage id
    pure result

def changeVisibilityLocked (id : GoString) (visibility : Visibility) :
    Call (Except Error Bool) := do
  beginChange
  match ← updateVisibility id visibility with
  | .error e =>
      endChange
      pure (.error e)
  | .ok false =>
      endChange
      pure (.ok false)
  | .ok true =>
      index (.updateVisibility id visibility)
      endChange
      pure (.ok true)

def changeVisibility (id : GoString) (visibility : Visibility) : Call (Except Error Bool) :=
  if visibility ≠ .isPublic ∧ visibility ≠ .isPrivate then pure (.error .invalidVisibility)
  else do
    lockImage id
    let result ← changeVisibilityLocked id visibility
    unlockImage id
    pure result

def convertedImage (value : Image) (metadata : Processor.Metadata) (stored : Int × Digest)
    (newStorageKey summary : GoString) (now : Time) : Image :=
  { value with
    originalName := replaceExtension value.originalName metadata.extension
    storageKey := newStorageKey
    extension := metadata.extension
    mimeType := metadata.mimeType
    width := metadata.width
    height := metadata.height
    storedSize := stored.1
    storedSHA256 := stored.2
    processingSummary := summary
    updatedAt := now }

/-- What follows the update of the row: thumbnail and old file, whose failures are only reported.
The second component is the thumbnail's temporary file if it is still there. -/
def finishConversion (value : Image) (oldStorageKey : GoString) (thumbnailPath : Option GoString) :
    Call (Except Error ConversionResult × Option GoString) := do
  let thumbnail ←
    match thumbnailPath with
    | some path => commitThumbnailTemporary path value.id
    | none => removeKey .thumbnails value.id
  let original ← removeKey .images oldStorageKey
  pure (.ok
    { image := value
      originalFileDeleted := original.isOk
      thumbnailUpdated := thumbnail.isOk
      cleanupPending := !original.isOk || !thumbnail.isOk },
    if thumbnail.isOk then none else thumbnailPath)

def replaceContent (value : Image) (oldStorageKey : GoString) (thumbnailPath : Option GoString) :
    Call (Except Error ConversionResult × Option GoString) := do
  beginChange
  match ← updateContent value with
  | .error e =>
      endChange
      let _ ← removeKey .images value.storageKey
      pure (.error e, thumbnailPath)
  | .ok false =>
      endChange
      let _ ← removeKey .images value.storageKey
      pure (.error .imageNotFound, thumbnailPath)
  | .ok true =>
      index (.add value.id (Delivery.targetOf value))
      endChange
      finishConversion value oldStorageKey thumbnailPath

def conversionSummary (source : Processor.Metadata) : ProcessingSummary :=
  { action := .convert
    sourceFormat := source.format
    storedFormat := .webp
    preserved := false
    compressionEnabled := false
    conversionEnabled := true
    compressionRejected := false }

def publishConversion (value : Image) (source metadata : Processor.Metadata)
    (stored : Int × Digest) (outputPath : GoString) (thumbnailPath : Option GoString) :
    Call (Except Error ConversionResult × Option GoString) := do
  match ← newUUID with
  | .error e => pure (.error e, thumbnailPath)
  | .ok newStorageKey =>
      match ← commitTemporary outputPath newStorageKey with
      | .error e => pure (.error e, thumbnailPath)
      | .ok _ =>
          let now ← clockNow
          replaceContent
            (convertedImage value metadata stored newStorageKey (conversionSummary source).encode now)
            value.storageKey thumbnailPath

/-- The deferred removal of the thumbnail's temporary file. -/
def withThumbnail (publish : Option GoString → Call (Except Error ConversionResult × Option GoString))
    (thumbnailPath : Option GoString) : Call (Except Error ConversionResult) := do
  let (result, remaining) ← publish thumbnailPath
  removeOptional remaining
  pure result

def convertThumbnail (value : Image) (source metadata : Processor.Metadata)
    (stored : Int × Digest) (outputPath : GoString) : Call (Except Error ConversionResult) := do
  match ← createTemporary with
  | .error e => pure (.error e)
  | .ok thumbnailPath =>
      match ← closeTemporary thumbnailPath with
      | .error e => discard thumbnailPath e
      | .ok _ =>
          let made : Except Processor.Error Unit ←
            file (.thumbnail (.temporary outputPath) thumbnailPath)
          match made with
          | .ok _ =>
              withThumbnail (publishConversion value source metadata stored outputPath)
                (some thumbnailPath)
          | .error e =>
              -- an unavailable processor only clears the variable; the file stays
              if e = .unavailable then
                withThumbnail (publishConversion value source metadata stored outputPath) none
              else discard thumbnailPath (.processor e)

def convertOutput (value : Image) (source : Processor.Metadata) (options : Processor.Options)
    (outputPath : GoString) : Call (Except Error ConversionResult) := do
  let limits : Processor.Limits := ⟨value.storedSize, Processor.int64 (value.width * value.height)⟩
  let transformed : Except Processor.Error Unit ←
    file (.transform (.stored value.storageKey) outputPath source
      { options with conversionEnabled := true } ⟨.convert, .webp⟩)
  match transformed with
  | .error e => pure (.error (mapProcessorError (.processor e)))
  | .ok _ =>
      let outputLimits : Processor.Limits :=
        ⟨Processor.int64 (value.storedSize * 4), limits.maxTotalPixels⟩
      match ← inspectFile (.temporary outputPath) outputLimits with
      | .error e => pure (.error (mapProcessorError e))
      | .ok metadata =>
          if metadata.format ≠ .webp ∨ metadata.width ≠ value.width ∨
              metadata.height ≠ value.height then
            pure (.error (mapProcessorError (.processor .invalidImage)))
          else
            match ← hashFile outputPath with
            | .error e => pure (.error e)
            | .ok stored => convertThumbnail value source metadata stored outputPath

def convertGated (id : GoString) (options : Processor.Options) :
    Call (Except Error ConversionResult) := do
  match ← getImage id with
  | .error e => pure (.error e)
  | .ok value =>
      if value.mimeType ≠ str "image/jpeg" ∧ value.mimeType ≠ str "image/png" then
        pure (.error .conversionNotSupported)
      else if !validKey value.storageKey then pure (.error .storage)
      else
        let limits : Processor.Limits :=
          ⟨value.storedSize, Processor.int64 (value.width * value.height)⟩
        match ← inspectFile (.stored value.storageKey) limits with
        | .error e => pure (.error (mapProcessorError e))
        | .ok source =>
            match ← createTemporary with
            | .error e => pure (.error e)
            | .ok outputPath =>
                match ← closeTemporary outputPath with
                | .error e => discard outputPath e
                | .ok _ =>
                    let result ← convertOutput value source options outputPath
                    removeTemporary outputPath
                    pure result

def convertLocked (id : GoString) (options : Processor.Options) :
    Call (Except Error ConversionResult) := do
  let acquired ← gate .tryAcquire
  if !acquired then pure (.error .processingBusy)
  else
    let result ← convertGated id options
    let _ ← gate .release
    pure result

def convertToWebP (id : GoString) (options : Processor.Options) :
    Call (Except Error ConversionResult) :=
  if !P.isCanonicalUUID id then pure (.error .imageNotFound)
  else do
    lockImage id
    let result ← convertLocked id options
    unlockImage id
    pure result

end ImageSilo
