import ImageSilo.Image.Service

/-! An import stores the bytes of a file as they are and creates its image row and its alias row in one
transaction. -/
namespace ImageSilo

open Go Concurrent Storage

variable (P : Platform)

def defaultMaxBytes : Int := 20971520

def stageImport (reader : Reader) (maxBytes : Int) : Call (Except Error Staged) :=
  stageReader P defaultMaxBytes reader maxBytes

structure ImportResult where
  image : Image
  mapping : Alias

def importSummary (metadata : Processor.Metadata) : ProcessingSummary :=
  { action := .preserve
    sourceFormat := metadata.format
    storedFormat := metadata.format
    preserved := true
    compressionEnabled := false
    conversionEnabled := false
    compressionRejected := false }

def importedImage (staged : Staged) (originalName : GoString) (options : ImportOptions) (now : Time)
    (metadata : Processor.Metadata) (id : GoString) : Image :=
  { id := id
    originalName := sanitizeOriginalName originalName
    storageKey := id
    extension := metadata.extension
    mimeType := metadata.mimeType
    width := metadata.width
    height := metadata.height
    sourceSize := staged.size
    storedSize := staged.size
    sourceSHA256 := staged.digest
    storedSHA256 := staged.digest
    processingSummary := (importSummary metadata).encode
    visibility := options.visibility
    uploadedVia := str "import"
    uploadedByAPITokenID := options.uploadedByAPITokenID
    createdAt := now
    updatedAt := now }

def importedAlias (id path imageID : GoString) (now : Time) : Alias :=
  { id := id, path := path, imageID := imageID, source := str "import", createdAt := now }

def prepareImport (sourcePath : GoString) (limits : Processor.Limits) :
    Call (Except Error (Processor.Metadata × Option GoString)) := do
  match ← inspectFile (.temporary sourcePath) limits with
  | .error e => pure (.error e)
  | .ok metadata =>
      match ← prepareThumbnail sourcePath with
      | .error e => pure (.error e)
      | .ok thumbnailPath => pure (.ok (metadata, thumbnailPath))

def publishImport (value : Image) (mapping : Alias) (thumbnailCommitted : Bool) :
    Call (Except Error ImportResult) := do
  lockImage value.id
  beginAliasChange mapping.path
  match ← createImport value mapping with
  | .error e =>
      endAliasChange mapping.path
      unlockImage value.id
      rollback value.storageKey value.id thumbnailCommitted e
  | .ok _ =>
      index (.add value.id (Delivery.targetOf value))
      index (.addAlias mapping.path value.id)
      endAliasChange mapping.path
      unlockImage value.id
      pure (.ok ⟨value, mapping⟩)

def commitImport (staged : Staged) (originalName aliasPath : GoString) (options : ImportOptions)
    (now : Time) (metadata : Processor.Metadata) (thumbnailPath : Option GoString) :
    Call (Except Error ImportResult) := do
  match ← newUUID with
  | .error e => pure (.error e)
  | .ok imageID =>
      match ← newUUID with
      | .error e => pure (.error e)
      | .ok aliasID =>
          match ← commitTemporary staged.path imageID with
          | .error e => pure (.error e)
          | .ok _ =>
              match ← commitThumbnail thumbnailPath imageID with
              | .error e => rollback imageID imageID false e
              | .ok thumbnailCommitted =>
                  publishImport (importedImage staged originalName options now metadata imageID)
                    (importedAlias aliasID aliasPath imageID now) thumbnailCommitted

def importPrepared (staged : Staged) (originalName aliasPath : GoString) (options : ImportOptions)
    (now : Time) : Call (Except Error ImportResult) := do
  let prepared ← prepareImport staged.path options.limits
  releaseLease
  match prepared with
  | .error e => pure (.error (mapImportError e))
  | .ok (metadata, thumbnailPath) =>
      let result ← commitImport staged originalName aliasPath options now metadata thumbnailPath
      removeOptional thumbnailPath
      pure result

def importStaged (staged : Staged) (originalName aliasPath : GoString) (options : ImportOptions)
    (now : Time) : Call (Except Error ImportResult) :=
  match normalizeOptions options with
  | .error e => pure (.error e)
  | .ok options =>
      if staged.path = [] ∨ staged.size ≤ 0 ∨ options.limits.maxBytes < staged.size then
        pure (.error .invalidImage)
      else do
        let active ← gate .leaseActive
        if !active then pure (.error .processingBusy)
        else if options.visibility ≠ .isPublic ∧ options.visibility ≠ .isPrivate then
          pure (.error .invalidVisibility)
        else
          match Delivery.normalizeAliasPath P aliasPath with
          | .error e => pure (.error (.aliasPath e))
          | .ok normalizedAlias =>
              match ← aliasExists normalizedAlias with
              | .error e => pure (.error e)
              | .ok true => pure (.error .aliasConflict)
              | .ok false => importPrepared staged originalName normalizedAlias options now

def importImage (reader : Reader) (originalName aliasPath : GoString) (options : ImportOptions)
    (now : Time) : Call (Except Error ImportResult) :=
  match normalizeOptions options with
  | .error e => pure (.error e)
  | .ok options => do
      let acquired ← gate .tryAcquireLease
      if !acquired then pure (.error .processingBusy)
      else
        match ← stageImport P reader options.limits.maxBytes with
        | .error e =>
            releaseLease
            pure (.error e)
        | .ok staged =>
            let result ← importStaged P staged originalName aliasPath options now
            removeTemporary staged.path
            releaseLease
            pure result

def createAliasLocked (value : Alias) : Call (Except Error Alias) := do
  lockImage value.imageID
  beginAliasChange value.path
  match ← createAliasRow value with
  | .error e =>
      endAliasChange value.path
      unlockImage value.imageID
      pure (.error e)
  | .ok _ =>
      index (.addAlias value.path value.imageID)
      endAliasChange value.path
      unlockImage value.imageID
      pure (.ok value)

def createAlias (path imageID source : GoString) (now : Time) : Call (Except Error Alias) :=
  match Delivery.normalizeAliasPath P path with
  | .error e => pure (.error (.aliasPath e))
  | .ok normalizedPath =>
      if !P.isCanonicalUUID imageID then pure (.error .invalidTargetImage)
      else
        match normalizeSource source with
        | .error e => pure (.error e)
        | .ok source => do
            match ← newUUID with
            | .error e => pure (.error e)
            | .ok id =>
                createAliasLocked
                  { id := id, path := normalizedPath, imageID := imageID, source := source,
                    createdAt := now }

def deleteAliasLocked (id path : GoString) : Call (Except Error Unit) := do
  beginAliasChange path
  match ← deleteAliasRow id with
  | .error e =>
      endAliasChange path
      pure (.error e)
  | .ok deleted =>
      index (.removeAlias deleted)
      endAliasChange path
      pure (.ok ())

def deleteAlias (id : GoString) : Call (Except Error Unit) :=
  if !P.isCanonicalUUID id then pure (.error .aliasNotFound)
  else do
    match ← pathByID id with
    | .error e => pure (.error e)
    | .ok path => deleteAliasLocked id path

end ImageSilo
