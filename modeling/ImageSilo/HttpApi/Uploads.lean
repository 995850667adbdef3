import ImageSilo.Importer.Service
import ImageSilo.Setup.Service

/-! The handlers of an upload and of an import, from the lease to the deferred calls. -/
namespace ImageSilo.Uploads

open Go Concurrent

/-- A part of a multipart body, with the name of the file it claims to be. -/
inductive Part
  | file (fileName : GoString) (content : Reader)
  | aliasPath (fileName : GoString) (content : Reader)
  | visibility (fileName : GoString) (content : Reader)
  | unsupported

/-- What stands after the last part that can be read. -/
inductive Ending
  | endOfBody
  | tooLarge
  | malformed

structure MultipartRequest where
  /-- `none` if the caller is refused; otherwise the API token that the caller uses, if any. -/
  principal : Option (Option GoString)
  /-- `none` if the settings cannot be read. -/
  settings : Option Setup.Settings
  multipart : Bool
  parts : List Part
  ending : Ending

inductive Answer
  | refused
  | problem (status : Nat) (code message : String) (retryAfter : Bool)
  | uploaded (image : Image)
  | imported (result : ImportResult)

def errorText : Error → String
  | .fileTooLarge => "image exceeds the maximum upload size"
  | .invalidImage => "file is not a valid supported image"
  | .unsupportedFormat => "image format is not supported"
  | .tooManyPixels => "image exceeds the maximum decoded pixel count"
  | .aliasPath .invalidAliasPath => "alias path is invalid"
  | .aliasPath .reservedAliasPath => "alias path conflicts with a reserved route"
  | _ => ""

def writeError (status : Nat) (code message : String) : Answer := .problem status code message false

def processingBusy : Answer :=
  .problem 503 "processing_busy" "Image processor is at capacity. Retry shortly." true

def writeUploadError : Error → Answer
  | .fileTooLarge => writeError 413 "file_too_large" (errorText .fileTooLarge)
  | .invalidImage => writeError 400 "invalid_image" (errorText .invalidImage)
  | .unsupportedFormat => writeError 400 "invalid_image" (errorText .unsupportedFormat)
  | .tooManyPixels => writeError 400 "invalid_image" (errorText .tooManyPixels)
  | .processingBusy => processingBusy
  | .processingUnavailable =>
      writeError 503 "processing_unavailable" "Image byte processing is unavailable in this build."
  | _ => writeError 500 "internal_error" "Unable to store image."

def writeServiceError : Error → Answer
  | .aliasPath e => writeError 400 "invalid_alias" (errorText (.aliasPath e))
  | .aliasConflict => writeError 409 "alias_conflict" "Alias path already exists."
  | .fileTooLarge => writeError 413 "file_too_large" (errorText .fileTooLarge)
  | .invalidImage => writeError 400 "invalid_image" (errorText .invalidImage)
  | .unsupportedFormat => writeError 400 "invalid_image" (errorText .unsupportedFormat)
  | .tooManyPixels => writeError 400 "invalid_image" (errorText .tooManyPixels)
  | .processingBusy => processingBusy
  | _ => writeError 500 "internal_error" "Unable to import image."

/-- `io.ReadAll(io.LimitReader(part, limit))`. -/
def readLimited (reader : Reader) (limit : Nat) : Option GoString :=
  let value := reader.content.take limit
  if reader.fails ∧ value.length < limit then none else some value

def visibilityOf (text : GoString) : Visibility :=
  if text = str "public" then .isPublic else if text = str "private" then .isPrivate else .other text

def Ending.answer (unreadable : String) : Ending → Except Answer Unit
  | .endOfBody => .ok ()
  | .tooLarge => .error (writeError 413 "file_too_large" "Image exceeds the maximum upload size.")
  | .malformed => .error (writeError 400 "invalid_multipart" unreadable)

/-- What the parts read so far have told. -/
structure Form where
  staged : Option Staged
  originalName : GoString
  aliasPath : GoString
  aliasSeen : Bool
  visibility : Option Visibility
  visibilitySeen : Bool

def Form.empty : Form := ⟨none, [], [], false, none, false⟩

variable (P : Platform)

/-- The part `file`; a failure leaves nothing staged. -/
def receiveFile (stage : Reader → Int → Call (Except Error Staged)) (failure : Error → Answer)
    (single : Answer) (maxBytes : Int) (form : Form) (fileName : GoString) (content : Reader) :
    Call (Form × Except Answer Unit) :=
  if form.staged.isSome ∨ fileName = [] then pure (form, .error single)
  else do
    match ← stage content maxBytes with
    | .error e => pure ({ form with originalName := fileName }, .error (failure e))
    | .ok staged => pure ({ form with originalName := fileName, staged := some staged }, .ok ())

def singleFileRequired : Answer :=
  writeError 400 "single_file_required" "Exactly one image file is required."

def singleImportRequired : Answer :=
  writeError 400 "single_import_required" "Exactly one image file and one alias path are required."

def receiveVisibility (form : Form) (fileName : GoString) (content : Reader) :
    Form × Except Answer Unit :=
  if form.visibilitySeen ∨ fileName ≠ [] then
    (form, .error
      (writeError 400 "invalid_visibility" "Visibility must be supplied once as public or private."))
  else
    match readLimited content 65 with
    | none =>
        (form, .error (writeError 400 "invalid_visibility" "Visibility must be public or private."))
    | some value =>
        if 64 < value.length then
          (form, .error
            (writeError 400 "invalid_visibility" "Visibility must be public or private."))
        else
          let raw := trimSpace value
          ({ form with
              visibilitySeen := true
              visibility := if raw = [] then form.visibility else some (visibilityOf raw) }, .ok ())

def receiveAlias (form : Form) (fileName : GoString) (content : Reader) :
    Form × Except Answer Unit :=
  if form.aliasSeen ∨ fileName ≠ [] then (form, .error singleImportRequired)
  else
    match readLimited content 2049 with
    | none => (form, .error (writeError 400 "invalid_alias" "Alias path is too long."))
    | some value =>
        if 2048 < value.length then
          (form, .error (writeError 400 "invalid_alias" "Alias path is too long."))
        else ({ form with aliasSeen := true, aliasPath := value }, .ok ())

def receiveUploadPart (maxBytes : Int) (form : Form) : Part → Call (Form × Except Answer Unit)
  | .file fileName content =>
      receiveFile (stageUpload P) writeUploadError singleFileRequired maxBytes form fileName content
  | .visibility fileName content => pure (receiveVisibility form fileName content)
  | _ => pure (form, .error
      (writeError 400 "invalid_multipart" "Multipart upload contains an unsupported field."))

def receiveImportPart (maxBytes : Int) (form : Form) : Part → Call (Form × Except Answer Unit)
  | .file fileName content =>
      receiveFile (stageImport P) writeServiceError singleImportRequired maxBytes form fileName content
  | .aliasPath fileName content => pure (receiveAlias form fileName content)
  | .visibility fileName content => pure (receiveVisibility form fileName content)
  | .unsupported => pure (form, .error
      (writeError 400 "invalid_multipart" "Multipart import contains an unsupported field."))

/-- The loop over the parts; it stops at the first that is refused. -/
def receiveParts (receive : Form → Part → Call (Form × Except Answer Unit))
    (ending : Except Answer Unit) : List Part → Form → Call (Form × Except Answer Unit)
  | [], form => pure (form, ending)
  | part :: parts, form => do
      match ← receive form part with
      | (form, .error answer) => pure (form, .error answer)
      | (form, .ok _) => receiveParts receive ending parts form

def processingOptions (settings : Setup.Settings) : Processor.Options :=
  { compressionEnabled := settings.preferences.compressionEnabled
    jpegQuality := settings.preferences.jpegQuality
    webpQuality := settings.preferences.webpQuality
    pngCompressionLevel := settings.preferences.pngCompressionLevel
    conversionEnabled := settings.preferences.conversionEnabled
    conversionWebPQuality := settings.preferences.conversionWebPQuality
    conversionWebPLossless := settings.preferences.conversionLossless }

def limitsOf (settings : Setup.Settings) : Processor.Limits :=
  { maxBytes := settings.maxUploadBytes, maxTotalPixels := settings.maxTotalPixels }

def invalidVisibility : Answer :=
  writeError 400 "invalid_visibility" "Visibility must be public or private."

def commitUpload (settings : Setup.Settings) (tokenID : Option GoString) (form : Form) :
    Call Answer :=
  match form.staged with
  | none => pure singleFileRequired
  | some staged =>
      let visibility := form.visibility.getD settings.preferences.defaultVisibility
      if visibility ≠ .isPublic ∧ visibility ≠ .isPrivate then pure invalidVisibility
      else do
        let now ← clockNow
        let options : UploadOptions :=
          { visibility := visibility
            uploadedVia := if tokenID.isSome then str "api_token" else str "admin"
            uploadedByAPITokenID := tokenID
            limits := limitsOf settings
            processing := processingOptions settings }
        match ← commitStagedUpload staged form.originalName options now with
        | .error e => pure (writeUploadError e)
        | .ok image => pure (.uploaded image)

def commitImport (settings : Setup.Settings) (tokenID : Option GoString) (form : Form) :
    Call Answer :=
  match form.staged, form.aliasSeen with
  | some staged, true =>
      let visibility := form.visibility.getD settings.preferences.defaultVisibility
      if form.visibility.isSome ∧ visibility ≠ .isPublic ∧ visibility ≠ .isPrivate then
        pure invalidVisibility
      else do
        let now ← clockNow
        let options : ImportOptions :=
          { visibility := visibility
            uploadedByAPITokenID := tokenID
            limits := limitsOf settings }
        match ← importStaged P staged form.originalName form.aliasPath options now with
        | .error e => pure (writeServiceError e)
        | .ok result => pure (.imported result)
  | _, _ => pure singleImportRequired

/-- The body of a handler from the parts on, with the deferred discarding of the staged file. -/
def receiveBody (receive : Form → Part → Call (Form × Except Answer Unit))
    (ending : Except Answer Unit) (commit : Form → Call Answer) (parts : List Part) :
    Call Answer := do
  let (form, received) ← receiveParts receive ending parts .empty
  match received with
  | .error answer =>
      removeOptional (form.staged.map Staged.path)
      pure answer
  | .ok _ =>
      let answer ← commit form
      removeOptional (form.staged.map Staged.path)
      pure answer

/-- The part of a handler that holds the lease. -/
def leased (required : Answer) (multipart : Bool) (body : Call Answer) : Call Answer := do
  let acquired ← gate .tryAcquireLease
  if !acquired then pure processingBusy
  else if !multipart then
    releaseLease
    pure required
  else
    let answer ← body
    releaseLease
    pure answer

/-- `imageHandler.upload`. -/
def upload (r : MultipartRequest) : Call Answer :=
  match r.principal, r.settings with
  | none, _ => pure .refused
  | some _, none => pure (writeError 500 "internal_error" "Unable to read upload settings.")
  | some tokenID, some settings =>
      leased (writeError 400 "invalid_multipart" "A multipart image upload is required.") r.multipart
        (receiveBody (receiveUploadPart P settings.maxUploadBytes)
          (r.ending.answer "Unable to read multipart upload.") (commitUpload settings tokenID) r.parts)

/-- `importHandler.create`. -/
def create (r : MultipartRequest) : Call Answer :=
  match r.principal, r.settings with
  | none, _ => pure .refused
  | some _, none => pure (writeError 500 "internal_error" "Unable to read import settings.")
  | some tokenID, some settings =>
      leased (writeError 400 "invalid_multipart" "A multipart image import is required.") r.multipart
        (receiveBody (receiveImportPart P settings.maxUploadBytes)
          (r.ending.answer "Unable to read multipart import.") (commitImport P settings tokenID) r.parts)

end ImageSilo.Uploads
